/-
A cursor by byte offsets. A place in a line can also be kept as two offsets in bytes, where the token starts and
how far the line is read. Every look at the line then takes a slice, and where an offset is inside a character
or the start is behind the position there is none. At the offsets of a cursor all these slices exist, and to
move by offsets, character by character, is to move the cursor.
-/
import ShaderText.Cursor
import ShaderText.Proofs.Text.Slices

namespace ShaderText

/-- A place in a line by two byte offsets: where the token starts, and how far the line is read. -/
structure Offsets where
  line : List Char
  start : Nat
  pos : Nat
  deriving DecidableEq, Repr

namespace Offsets

/-! ## Looking -/

/-- The offsets at the start of a line. -/
def ofLine (line : List Char) : Offsets := ⟨line, 0, 0⟩

def rest? (o : Offsets) : Option (List Char) := slice? o.line o.pos (byteLength o.line)

def token? (o : Offsets) : Option (List Char) := slice? o.line o.start o.pos

/-- The next character, if the rest is a slice. -/
def peek? (o : Offsets) : Option (Option Char) := o.rest?.map List.head?

theorem pos_add_le_of_peek? {o : Offsets} {d : Char} (h : o.peek? = some (some d)) :
    o.pos + d.utf8Size ≤ byteLength o.line := by
  obtain ⟨rest, hrest, hhead⟩ := Option.map_eq_some_iff.1 h
  obtain ⟨more, rfl⟩ := List.head?_eq_some_iff.1 hhead
  obtain ⟨front, back, hline, hpos, -⟩ := slice?_eq_some_iff.1 hrest
  rw [hline, hpos]
  simp only [byteLength_append, byteLength]
  omega

/-! ## Moving -/

/-- Reads one character, and says which. -/
def next? (o : Offsets) : Option (Option Char × Offsets) := do
  match ← o.peek? with
  | none => some (none, o)
  | some d => some (some d, { o with pos := o.pos + d.utf8Size })

/-- Reads the next character if it is `expected`, and says whether it did. -/
def eat? (o : Offsets) (expected : Char) : Option (Bool × Offsets) := do
  if (← o.peek?) = some expected then some (true, { o with pos := o.pos + expected.utf8Size })
  else some (false, o)

/-- Reads one character after the other as long as the next one satisfies `p`. -/
def readWhile? (p : Char → Bool) (o : Offsets) : Option Offsets :=
  match _hpeek : o.peek? with
  | none => none
  | some none => some o
  | some (some d) =>
    if p d then readWhile? p { o with pos := o.pos + d.utf8Size } else some o
termination_by byteLength o.line - o.pos
decreasing_by
  have hle := pos_add_le_of_peek? _hpeek
  have hpos := d.utf8Size_pos
  show byteLength o.line - (o.pos + d.utf8Size) < byteLength o.line - o.pos
  omega

theorem readWhile?_of_end {p : Char → Bool} {o : Offsets} (h : o.peek? = some none) :
    o.readWhile? p = some o := by
  rw [readWhile?]
  split
  · simp_all
  · rfl
  · simp_all

theorem readWhile?_of_peek {p : Char → Bool} {o : Offsets} {d : Char} (h : o.peek? = some (some d)) :
    o.readWhile? p = if p d then readWhile? p { o with pos := o.pos + d.utf8Size } else some o := by
  rw [readWhile?]
  split
  · simp_all
  · simp_all
  · rename_i e he
    rw [h] at he
    cases he
    rfl

/-- Reads as long as the next character satisfies `p`, and says whether it read any. -/
def eatWhile? (o : Offsets) (p : Char → Bool) : Option (Bool × Offsets) :=
  (o.readWhile? p).map fun o' => (decide (o.pos < o'.pos), o')

/-- Reads the rest of the line. -/
def skipToEnd (o : Offsets) : Offsets := { o with pos := byteLength o.line }

/-- Reads some bytes, or what is left if that is less. -/
def advance (o : Offsets) (bytes : Nat) : Offsets := { o with pos := min (o.pos + bytes) (byteLength o.line) }

/-- Gives back the last character of the token, `n` times or until the token is empty. -/
def backUp? (o : Offsets) : Nat → Option Offsets
  | 0 => some o
  | n + 1 =>
    if o.pos ≤ o.start then some o
    else do
      match (← o.token?).getLast? with
      | none => some o
      | some d => backUp? { o with pos := o.pos - d.utf8Size } n

/-- Goes back to the start of the token. -/
def rewind (o : Offsets) : Offsets := { o with pos := o.start }

/-- Starts a new token at the position. -/
def startToken (o : Offsets) : Offsets := { o with start := o.pos }

end Offsets

namespace Cursor

/-- The offsets of a cursor. -/
def offsets (c : Cursor) : Offsets := ⟨c.line, c.start, c.pos⟩

/-! ## Slices at a cursor -/

theorem token?_offsets (c : Cursor) : c.offsets.token? = some c.token :=
  slice?_eq_some_iff.2 ⟨c.before, c.rest, rfl, c.start_eq, c.pos_eq⟩

theorem rest?_offsets (c : Cursor) : c.offsets.rest? = some c.rest := by
  refine slice?_eq_some_iff.2 ⟨c.before ++ c.token, [], ?_, c.pos_eq, rfl⟩
  rw [List.append_nil]
  rfl

theorem peek?_offsets (c : Cursor) : c.offsets.peek? = some c.peek := by
  rw [Offsets.peek?, rest?_offsets]
  rfl

/-! ## Reading -/

theorem pos_take (c : Cursor) (n : Nat) : (c.take n).pos = c.pos + byteLength (c.rest.take n) := by
  rw [pos, token_take, byteLength_append, ← Nat.add_assoc]
  rfl

theorem offsets_take (c : Cursor) (n : Nat) :
    (c.take n).offsets = { c.offsets with pos := c.pos + byteLength (c.rest.take n) } := by
  rw [offsets, line_take, pos_take]
  rfl

theorem take_zero (c : Cursor) : c.take 0 = c := by
  simp [take]

theorem take_take (c : Cursor) (a b : Nat) : (c.take a).take b = c.take (a + b) := by
  simp [take, List.take_add]

theorem take_eq_take_min (c : Cursor) (n : Nat) : c.take n = c.take (min n c.rest.length) := by
  have htake : c.rest.take n = c.rest.take (min n c.rest.length) := by
    rw [List.take_eq_take_iff]
    omega
  have hdrop : c.rest.drop n = c.rest.drop (min n c.rest.length) := by
    rw [List.drop_eq_drop_iff]
    omega
  simp only [take, htake, hdrop]

/-- Behind the next character the position is as many bytes further as the character has. -/
theorem offsets_next_of_peek {c : Cursor} {d : Char} (h : c.peek = some d) :
    c.next.offsets = { c.offsets with pos := c.pos + d.utf8Size } := by
  obtain ⟨more, hrest⟩ := List.head?_eq_some_iff.1 h
  rw [next, offsets_take, hrest]
  rfl

theorem next_of_peek_none {c : Cursor} (h : c.peek = none) : c.next = c := by
  obtain ⟨behind, token, rest, tabSize, start, column, hstart, hcolumn⟩ := c
  have hrest : rest = [] := List.head?_eq_none_iff.1 h
  subst hrest
  simp [next, take]

theorem next?_offsets (c : Cursor) : c.offsets.next? = some (c.peek, c.next.offsets) := by
  unfold Offsets.next?
  rw [peek?_offsets]
  cases hpeek : c.peek with
  | none => rw [next_of_peek_none hpeek]; rfl
  | some d => rw [offsets_next_of_peek hpeek]; rfl

theorem eat?_offsets (c : Cursor) (expected : Char) :
    c.offsets.eat? expected = some ((c.eat expected).1, (c.eat expected).2.offsets) := by
  unfold Offsets.eat? eat
  rw [peek?_offsets]
  by_cases hpeek : c.peek = some expected
  · have hnext := offsets_next_of_peek hpeek
    rw [next] at hnext
    rw [if_pos hpeek, hnext, hpeek]
    exact if_pos rfl
  · rw [if_neg hpeek]
    exact if_neg hpeek

/-- A character that satisfies `p` is the first of the run that is read. -/
theorem eatWhile_of_peek {c : Cursor} {p : Char → Bool} {d : Char} (h : c.peek = some d) (hd : p d = true) :
    (c.eatWhile p).2 = (c.next.eatWhile p).2 := by
  obtain ⟨more, hrest⟩ := List.head?_eq_some_iff.1 h
  have hmore : c.next.rest = more := by rw [next, rest_take, hrest]; rfl
  show c.take (c.rest.takeWhile p).length = c.next.take (c.next.rest.takeWhile p).length
  rw [hmore, hrest, List.takeWhile_cons_of_pos hd, next, take_take, List.length_cons, Nat.add_comm]

theorem eatWhile_of_stop {c : Cursor} {p : Char → Bool} (h : ∀ d, c.peek = some d → p d = false) :
    (c.eatWhile p).2 = c := by
  have hnone : c.rest.takeWhile p = [] := by
    cases hrest : c.rest with
    | nil => rfl
    | cons d more => exact List.takeWhile_cons_of_neg (by simp [h d (by rw [peek, hrest]; rfl)])
  show c.take (c.rest.takeWhile p).length = c
  rw [hnone]
  exact c.take_zero

theorem readWhile?_offsets (p : Char → Bool) (c : Cursor) :
    c.offsets.readWhile? p = some (c.eatWhile p).2.offsets := by
  -- character by character of what is not read yet
  induction hrest : c.rest generalizing c with
  | nil =>
    have hpeek : c.peek = none := by rw [peek, hrest]; rfl
    rw [Offsets.readWhile?_of_end (by rw [peek?_offsets, hpeek]), eatWhile_of_stop]
    intro d hd
    rw [hpeek] at hd
    cases hd
  | cons d more ih =>
    have hpeek : c.peek = some d := by rw [peek, hrest]; rfl
    have hmore : c.next.rest = more := by rw [next, rest_take, hrest]; rfl
    rw [Offsets.readWhile?_of_peek (by rw [peek?_offsets, hpeek])]
    cases hd : p d with
    | true =>
      have hnext := ih c.next hmore
      rw [offsets_next_of_peek hpeek] at hnext
      rw [if_pos rfl, eatWhile_of_peek hpeek hd]
      exact hnext
    | false =>
      rw [if_neg Bool.false_ne_true, eatWhile_of_stop]
      intro e he
      rw [hpeek] at he
      cases he
      exact hd

/-- Some bytes more are read just if the run is not empty. -/
theorem eatWhile?_offsets (c : Cursor) (p : Char → Bool) :
    c.offsets.eatWhile? p = some ((c.eatWhile p).1, (c.eatWhile p).2.offsets) := by
  have hread : (c.eatWhile p).2.offsets.pos = c.pos + byteLength (c.rest.takeWhile p) := by
    show (c.take (c.rest.takeWhile p).length).pos = _
    rw [pos_take, ← List.prefix_iff_eq_take.1 (List.takeWhile_prefix p)]
  have hsome : decide (c.offsets.pos < (c.eatWhile p).2.offsets.pos) = (c.eatWhile p).1 := by
    show decide (c.pos < _) = decide (0 < (c.rest.takeWhile p).length)
    rw [hread, decide_eq_decide]
    cases c.rest.takeWhile p with
    | nil => simp [byteLength]
    | cons d run =>
      have hpos := d.utf8Size_pos
      simp only [byteLength, List.length_cons]
      omega
  rw [Offsets.eatWhile?, readWhile?_offsets, Option.map_some, hsome]

theorem byteLength_line (c : Cursor) : byteLength c.line = c.pos + byteLength c.rest := by
  rw [line, byteLength_append, pos_eq]

theorem offsets_skipToEnd (c : Cursor) : c.skipToEnd.offsets = c.offsets.skipToEnd := by
  rw [skipToEnd, offsets_take, List.take_length, ← byteLength_line]
  rfl

/-- Where the bytes are those of some whole characters of the rest, or more than it has, these are read. -/
theorem offsets_advance {c : Cursor} {bytes : Nat} (h : IsBoundary c.rest (min bytes (byteLength c.rest))) :
    (c.advance bytes).offsets = c.offsets.advance bytes := by
  obtain ⟨front, back, hrest, hmin⟩ := h
  have hread : charsBefore c.rest bytes = front := by
    rw [hrest] at hmin ⊢
    exact charsBefore_of_min_eq hmin
  have hpos : c.pos + byteLength front = min (c.pos + bytes) (byteLength c.line) := by
    rw [byteLength_line]
    omega
  rw [advance, offsets_take, hread, hrest, List.take_left, hpos]
  rfl

/-! ## Back -/

theorem backUp_zero (c : Cursor) : c.backUp 0 = c := by
  simp [backUp]

theorem backUp_of_token_nil {c : Cursor} (h : c.token = []) (n : Nat) : c.backUp n = c := by
  obtain ⟨behind, token, rest, tabSize, start, column, hstart, hcolumn⟩ := c
  dsimp only at h
  subst h
  simp [backUp]

theorem backUp_backUp (c : Cursor) (a b : Nat) : (c.backUp a).backUp b = c.backUp (a + b) := by
  have hkept : (c.token.take (c.token.length - a)).length - b = c.token.length - (a + b) := by
    rw [List.length_take]
    omega
  have hle : c.token.length - (a + b) ≤ (c.token.take (c.token.length - a)).length := by omega
  have htoken : (c.token.take (c.token.length - a)).take (c.token.length - (a + b)) =
      c.token.take (c.token.length - (a + b)) := by
    rw [List.take_take, Nat.min_eq_left (by omega)]
  have hrest : (c.token.take (c.token.length - a)).drop (c.token.length - (a + b)) ++
      (c.token.drop (c.token.length - a) ++ c.rest) = c.token.drop (c.token.length - (a + b)) ++ c.rest := by
    rw [← List.append_assoc, ← List.drop_append_of_le_length hle, List.take_append_drop]
  simp only [backUp, hkept, htoken, hrest]

/-- Without its last character the token ends as many bytes earlier as the character has. -/
theorem offsets_backUp_one {c : Cursor} {kept : List Char} {d : Char} (h : c.token = kept ++ [d]) :
    (c.backUp 1).offsets = { c.offsets with pos := c.pos - d.utf8Size } := by
  have htoken : (c.backUp 1).token = kept := by
    show c.token.take (c.token.length - 1) = kept
    rw [h, List.length_append, List.length_singleton, Nat.add_sub_cancel, List.take_left]
  have hpos : (c.backUp 1).pos = c.pos - d.utf8Size := by
    show c.start + byteLength (c.backUp 1).token = c.start + byteLength c.token - d.utf8Size
    rw [htoken, h, byteLength_append]
    simp only [byteLength]
    omega
  rw [offsets, line_backUp, hpos]
  rfl

theorem backUp?_offsets (c : Cursor) (n : Nat) : c.offsets.backUp? n = some (c.backUp n).offsets := by
  induction n generalizing c with
  | zero => rw [backUp_zero]; rfl
  | succ n ih =>
    rw [Offsets.backUp?]
    rcases List.eq_nil_or_concat c.token with hnil | ⟨kept, d, hlast⟩
    · have hle : c.offsets.pos ≤ c.offsets.start := by
        show c.start + byteLength c.token ≤ c.start
        rw [hnil]
        exact Nat.le_refl _
      rw [if_pos hle, backUp_of_token_nil hnil]
    · rw [List.concat_eq_append] at hlast
      have hlt : ¬c.offsets.pos ≤ c.offsets.start := by
        have hpos := d.utf8Size_pos
        show ¬c.start + byteLength c.token ≤ c.start
        rw [hlast, byteLength_append, byteLength]
        omega
      have hlast? : c.token.getLast? = some d := by rw [hlast, List.getLast?_concat]
      have hstep := ih (c.backUp 1)
      rw [offsets_backUp_one hlast, backUp_backUp, Nat.add_comm] at hstep
      rw [if_neg hlt, token?_offsets]
      simp only [Option.bind_eq_bind, Option.bind_some, hlast?]
      exact hstep

theorem offsets_rewind (c : Cursor) : c.rewind.offsets = c.offsets.rewind := by
  rw [offsets, line_rewind]
  rfl

/-! ## Anew -/

theorem offsets_startToken (c : Cursor) : c.startToken.offsets = c.offsets.startToken := by
  rw [offsets, line_startToken, pos_startToken]
  rfl

end Cursor

end ShaderText
