/-
Runs of moves. From the start of a line, whatever moves are made, the cursor stays between two characters of the
line, behind the start of its token, and made by byte offsets the same moves find every slice that they take,
answer the same and lead to the same place. What is read onward is given back by backing up over as many
characters, to back up stops at the start of the token, and to read a run of characters is to read the longest.
-/
import Mathlib.Data.List.TakeWhile
import ShaderText.Proofs.Cursor.Offsets

namespace ShaderText

/-! ## Moves -/

/-- A move of a cursor; to peek is to stay. -/
inductive Move
  | next
  | peek
  | eat (expected : Char)
  | eatWhile (p : Char → Bool)
  | eatBlanks
  | skipToEnd
  | advance (bytes : Nat)
  | backUp (n : Nat)
  | rewind
  | startToken

/-- What a move answers: nothing, the next character if there is one, or whether it read any. -/
inductive Answer
  | nothing
  | char (d : Option Char)
  | read (any : Bool)
  deriving DecidableEq, Repr

/-- The move only reads on in the token. -/
def Move.onward : Move → Bool
  | next | peek | eat _ | eatWhile _ | eatBlanks | skipToEnd | advance _ => true
  | backUp _ | rewind | startToken => false

namespace Cursor

/-- What a move answers at a cursor, and the cursor behind it. -/
def perform (c : Cursor) : Move → Answer × Cursor
  | .next => (.char c.peek, c.next)
  | .peek => (.char c.peek, c)
  | .eat expected => (.read (c.eat expected).1, (c.eat expected).2)
  | .eatWhile p => (.read (c.eatWhile p).1, (c.eatWhile p).2)
  | .eatBlanks => (.read c.eatBlanks.1, c.eatBlanks.2)
  | .skipToEnd => (.nothing, c.skipToEnd)
  | .advance bytes => (.nothing, c.advance bytes)
  | .backUp n => (.nothing, c.backUp n)
  | .rewind => (.nothing, c.rewind)
  | .startToken => (.nothing, c.startToken)

/-- The answers of some moves, one after the other, and the cursor behind them. -/
def run (c : Cursor) : List Move → List Answer × Cursor
  | [] => ([], c)
  | m :: ms => ((c.perform m).1 :: ((c.perform m).2.run ms).1, ((c.perform m).2.run ms).2)

/-- The bytes of an advance are those of some whole characters of the rest, or more than it has; any other move
fits everywhere. -/
def Fits (c : Cursor) : Move → Prop
  | .advance bytes => IsBoundary c.rest (min bytes (byteLength c.rest))
  | _ => True

/-- Each of some moves fits where it is made. -/
def Allows (c : Cursor) : List Move → Prop
  | [] => True
  | m :: ms => c.Fits m ∧ (c.perform m).2.Allows ms

end Cursor

namespace Offsets

/-- What a move answers at two offsets, and the offsets behind it, if there are the slices that it takes. -/
def perform? (o : Offsets) : Move → Option (Answer × Offsets)
  | .next => o.next?.map fun (d, o') => (.char d, o')
  | .peek => o.peek?.map fun d => (.char d, o)
  | .eat expected => (o.eat? expected).map fun (any, o') => (.read any, o')
  | .eatWhile p => (o.eatWhile? p).map fun (any, o') => (.read any, o')
  | .eatBlanks => (o.eatWhile? isBlank).map fun (any, o') => (.read any, o')
  | .skipToEnd => some (.nothing, o.skipToEnd)
  | .advance bytes => some (.nothing, o.advance bytes)
  | .backUp n => (o.backUp? n).map fun o' => (.nothing, o')
  | .rewind => some (.nothing, o.rewind)
  | .startToken => some (.nothing, o.startToken)

/-- The answers of some moves and the offsets behind them, if there are all the slices that they take. -/
def run? (o : Offsets) : List Move → Option (List Answer × Offsets)
  | [] => some ([], o)
  | m :: ms => do
    let (answer, o') ← o.perform? m
    let (answers, o'') ← o'.run? ms
    some (answer :: answers, o'')

end Offsets

namespace Cursor

/-! ## By offsets -/

/-- A move by offsets is the move of the cursor. -/
theorem perform?_offsets {c : Cursor} {m : Move} (h : c.Fits m) :
    c.offsets.perform? m = some ((c.perform m).1, (c.perform m).2.offsets) := by
  cases m with
  | next => rw [Offsets.perform?, next?_offsets]; rfl
  | peek => rw [Offsets.perform?, peek?_offsets]; rfl
  | eat expected => rw [Offsets.perform?, eat?_offsets]; rfl
  | eatWhile p => rw [Offsets.perform?, eatWhile?_offsets]; rfl
  | eatBlanks => rw [Offsets.perform?, eatWhile?_offsets]; rfl
  | skipToEnd => rw [Offsets.perform?, ← offsets_skipToEnd]; rfl
  | advance bytes => rw [Offsets.perform?, ← offsets_advance h]; rfl
  | backUp n => rw [Offsets.perform?, backUp?_offsets]; rfl
  | rewind => rw [Offsets.perform?, ← offsets_rewind]; rfl
  | startToken => rw [Offsets.perform?, ← offsets_startToken]; rfl

/-- Moves by offsets are the moves of the cursor. -/
theorem run?_offsets {c : Cursor} {ms : List Move} (h : c.Allows ms) :
    c.offsets.run? ms = some ((c.run ms).1, (c.run ms).2.offsets) := by
  induction ms generalizing c with
  | nil => rfl
  | cons m ms ih =>
    obtain ⟨hm, hms⟩ := h
    rw [Offsets.run?, perform?_offsets hm]
    show ((c.perform m).2.offsets.run? ms).bind _ = _
    rw [ih hms]
    rfl

/-! ## In the line -/

theorem line_perform (c : Cursor) (m : Move) : (c.perform m).2.line = c.line := by
  cases m with
  | next => exact c.line_take 1
  | peek => rfl
  | eat expected => exact c.line_eat expected
  | eatWhile p => exact c.line_eatWhile p
  | eatBlanks => exact c.line_eatWhile isBlank
  | skipToEnd => exact c.line_take _
  | advance bytes => exact c.line_take _
  | backUp n => exact c.line_backUp n
  | rewind => exact c.line_rewind
  | startToken => exact c.line_startToken

theorem line_run (c : Cursor) (ms : List Move) : (c.run ms).2.line = c.line := by
  induction ms generalizing c with
  | nil => rfl
  | cons m ms ih => exact (ih _).trans (c.line_perform m)

/-- The token starts and the position is between two characters of the line, in this order, and what the cursor
shows of the line are the slices there. -/
structure InLine (c : Cursor) (line : List Char) : Prop where
  start_le_pos : c.start ≤ c.pos
  pos_le : c.pos ≤ byteLength line
  start_isBoundary : IsBoundary line c.start
  pos_isBoundary : IsBoundary line c.pos
  token : slice? line c.start c.pos = some c.token
  rest : slice? line c.pos (byteLength line) = some c.rest
  unfinished : slice? line c.start (byteLength line) = some (c.token ++ c.rest)

theorem inLine (c : Cursor) : c.InLine c.line := by
  obtain ⟨hstart, hpos, hle⟩ := isSome_slice?_iff.1 (Option.isSome_of_eq_some c.token?_offsets)
  have hunfinished : slice? c.line c.start (byteLength c.line) = some (c.token ++ c.rest) := by
    refine slice?_eq_some_iff.2 ⟨c.before, [], ?_, c.start_eq, ?_⟩
    · rw [List.append_nil, ← List.append_assoc]
      rfl
    · rw [← List.append_assoc]
      rfl
  exact ⟨hle, c.pos_le_byteLength_line, hstart, hpos, c.token?_offsets, c.rest?_offsets, hunfinished⟩

/-! ## Onward and back -/

/-- Over some characters the cursor gets from one place in its token to the other. -/
structure ReadsTo (c : Cursor) (read : List Char) (c' : Cursor) : Prop where
  start : c'.start = c.start
  token : c'.token = c.token ++ read
  rest : c.rest = read ++ c'.rest

theorem readsTo_take (c : Cursor) (n : Nat) : c.ReadsTo (c.rest.take n) (c.take n) :=
  ⟨rfl, rfl, (List.take_append_drop n c.rest).symm⟩

/-- A move onward reads some characters of the rest. -/
theorem exists_take_of_onward {c : Cursor} {m : Move} (h : m.onward = true) :
    ∃ n ≤ c.rest.length, (c.perform m).2 = c.take n := by
  have htake : ∀ n, ∃ k ≤ c.rest.length, c.take n = c.take k := fun n =>
    ⟨min n c.rest.length, Nat.min_le_right _ _, c.take_eq_take_min n⟩
  cases m with
  | next => exact htake 1
  | peek => exact ⟨0, Nat.zero_le _, c.take_zero.symm⟩
  | eat expected =>
    show ∃ n ≤ c.rest.length, (c.eat expected).2 = c.take n
    unfold eat
    split
    · exact htake 1
    · exact ⟨0, Nat.zero_le _, c.take_zero.symm⟩
  | eatWhile p => exact htake _
  | eatBlanks => exact htake _
  | skipToEnd => exact htake _
  | advance bytes => exact htake _
  | backUp n => cases h
  | rewind => cases h
  | startToken => cases h

theorem exists_take_of_all_onward {c : Cursor} {ms : List Move} (h : ∀ m ∈ ms, m.onward = true) :
    ∃ n ≤ c.rest.length, (c.run ms).2 = c.take n := by
  induction ms generalizing c with
  | nil => exact ⟨0, Nat.zero_le _, c.take_zero.symm⟩
  | cons m ms ih =>
    obtain ⟨hm, hms⟩ := List.forall_mem_cons.1 h
    obtain ⟨a, ha, hstep⟩ := exists_take_of_onward (c := c) hm
    obtain ⟨b, hb, hrun⟩ := ih (c := c.take a) hms
    rw [rest_take, List.length_drop] at hb
    refine ⟨a + b, by omega, ?_⟩
    rw [← take_take, ← hrun, ← hstep]
    rfl

/-- What is read onward is given back by backing up over as many characters. -/
theorem backUp_run_of_onward {c : Cursor} {ms : List Move} (h : ∀ m ∈ ms, m.onward = true) :
    ∃ read, c.ReadsTo read (c.run ms).2 ∧ (c.run ms).2.backUp read.length = c := by
  obtain ⟨n, hn, hrun⟩ := exists_take_of_all_onward (c := c) h
  rw [hrun]
  refine ⟨c.rest.take n, c.readsTo_take n, ?_⟩
  rw [List.length_take, Nat.min_eq_left hn, backUp_take hn]

/-- The bytes of the next characters fit, and to advance by them is to read these characters. -/
theorem advance_byteLength_take (c : Cursor) (n : Nat) :
    c.Fits (.advance (byteLength (c.rest.take n))) ∧ c.advance (byteLength (c.rest.take n)) = c.take n := by
  have hparts := List.take_append_drop n c.rest
  have hle : byteLength (c.rest.take n) ≤ byteLength c.rest := by
    have hsum := congrArg byteLength hparts
    rw [byteLength_append] at hsum
    omega
  have hread : charsBefore c.rest (byteLength (c.rest.take n)) = c.rest.take n := by
    have hchars := charsBefore_byteLength (c.rest.take n) (c.rest.drop n)
    rwa [hparts] at hchars
  constructor
  · show IsBoundary c.rest (min (byteLength (c.rest.take n)) (byteLength c.rest))
    rw [Nat.min_eq_left hle]
    exact ⟨c.rest.take n, c.rest.drop n, hparts.symm, rfl⟩
  · rw [advance, hread, List.length_take, ← take_eq_take_min]

/-- To back up gives back the last characters of the token, and all of it where it has no more. -/
theorem readsTo_of_backUp (c : Cursor) (n : Nat) :
    ∃ given, (c.backUp n).ReadsTo given c ∧ given.length = min n c.token.length := by
  refine ⟨c.token.drop (c.token.length - n), ⟨rfl, (List.take_append_drop _ _).symm, rfl⟩, ?_⟩
  rw [List.length_drop]
  omega

/-- To back up over as many characters as the token has, or more, is to go to its start. -/
theorem backUp_of_length_le {c : Cursor} {n : Nat} (h : c.token.length ≤ n) : c.backUp n = c.rewind := by
  have hnone : c.token.length - n = 0 := by omega
  simp only [backUp, hnone, List.take_zero, List.drop_zero]
  rfl

/-- Of the texts that a text starts with and whose characters all satisfy `p`, the longest. -/
structure IsLongestRun (p : Char → Bool) (cs run : List Char) : Prop where
  starts : run <+: cs
  all : ∀ d ∈ run, p d = true
  longest : ∀ other, other <+: cs → (∀ d ∈ other, p d = true) → other.length ≤ run.length

theorem isLongestRun_takeWhile (p : Char → Bool) (cs : List Char) : IsLongestRun p cs (cs.takeWhile p) := by
  refine ⟨List.takeWhile_prefix p, fun d hd => List.mem_takeWhile_imp hd, ?_⟩
  rintro other ⟨more, rfl⟩ hall
  rw [List.takeWhile_append_of_pos hall, List.length_append]
  exact Nat.le_add_right _ _

/-- To read while `p` holds is to read the longest run. -/
theorem readsTo_eatWhile (c : Cursor) (p : Char → Bool) :
    ∃ read, c.ReadsTo read (c.eatWhile p).2 ∧ IsLongestRun p c.rest read ∧
      ((c.eatWhile p).1 = true ↔ read ≠ []) := by
  refine ⟨c.rest.takeWhile p, ?_, isLongestRun_takeWhile p c.rest, ?_⟩
  · have hread := c.readsTo_take (c.rest.takeWhile p).length
    rwa [← List.prefix_iff_eq_take.1 (List.takeWhile_prefix p)] at hread
  · show decide (0 < (c.rest.takeWhile p).length) = true ↔ _
    rw [decide_eq_true_iff, List.length_pos_iff]

/-! ## Runs -/

/-- From the start of a line, moves keep the cursor between two characters of it, behind the start of its token,
and made by offsets they find all the slices that they take, answer the same and lead to the same place. From
there on, to advance by the bytes of the next characters fits and reads these; moves onward are undone by backing
up over the characters that they read; to back up over any number of characters stops at the start of the token;
and to read while `p` holds is to read the longest run. -/
theorem run_between_characters {line : List Char} {tabSize : Nat} {ms : List Move}
    (hms : (ofLine line tabSize).Allows ms) :
    let c := ((ofLine line tabSize).run ms).2
    (Offsets.ofLine line).run? ms = some (((ofLine line tabSize).run ms).1, ⟨line, c.start, c.pos⟩) ∧
    c.InLine line ∧
    (∀ n, c.Fits (.advance (byteLength (c.rest.take n))) ∧ c.advance (byteLength (c.rest.take n)) = c.take n) ∧
    (∀ rs, (∀ m ∈ rs, m.onward = true) →
      ∃ read, c.ReadsTo read (c.run rs).2 ∧ (c.run rs).2.backUp read.length = c) ∧
    (∀ n, ∃ given, (c.backUp n).ReadsTo given c ∧ given.length = min n c.token.length ∧
      c.start ≤ (c.backUp n).pos ∧ (c.token.length ≤ n → (c.backUp n).pos = c.start)) ∧
    ∀ p, ∃ read, c.ReadsTo read (c.eatWhile p).2 ∧ IsLongestRun p c.rest read ∧
      ((c.eatWhile p).1 = true ↔ read ≠ []) := by
  intro c
  have hline : c.line = line := line_run (ofLine line tabSize) ms
  have hplace : c.offsets = ⟨line, c.start, c.pos⟩ := by rw [offsets, hline]
  have hinLine := c.inLine
  rw [hline] at hinLine
  refine ⟨hplace ▸ run?_offsets hms, hinLine, c.advance_byteLength_take, fun rs => backUp_run_of_onward,
    fun n => ?_, c.readsTo_eatWhile⟩
  obtain ⟨given, hgiven, hlength⟩ := c.readsTo_of_backUp n
  refine ⟨given, hgiven, hlength, (c.backUp n).start_le_pos, fun hle => ?_⟩
  rw [backUp_of_length_le hle]
  rfl

/-- Characters of two and four bytes, a blank and two letters, the last of which is given back. -/
theorem run_between_characters_clef :
    let line := ['é', '𝄞', ' ', 'a', 'b']
    let ms : List Move := [.next, .startToken, .eat '𝄞', .eatBlanks, .advance 2, .backUp 1]
    let rs : List Move := [.eat 'x', .next, .eatWhile Char.isAlpha]
    let c := ((ofLine line 4).run ms).2
    (ofLine line 4).Allows ms ∧
    (Offsets.ofLine line).run? ms =
      some ([.char (some 'é'), .nothing, .read true, .read true, .nothing, .nothing], ⟨line, 2, 8⟩) ∧
    slice? line c.start c.pos = some ['𝄞', ' ', 'a'] ∧
    (∀ m ∈ rs, m.onward = true) ∧ (∃ read, c.ReadsTo read (c.run rs).2 ∧ (c.run rs).2.backUp read.length = c) ∧
    c.token.length ≤ 7 ∧ (c.backUp 7).pos = 2 ∧
    ∃ read, c.ReadsTo read (c.eatWhile Char.isAlpha).2 ∧ ['b'] <+: c.rest ∧ (∀ d ∈ ['b'], d.isAlpha = true) ∧
      1 ≤ read.length := by
  intro line ms rs c
  have hboundary : IsBoundary ['a', 'b'] 2 := by decide
  have hms : (ofLine line 4).Allows ms :=
    ⟨trivial, trivial, trivial, trivial, hboundary, trivial, trivial⟩
  obtain ⟨hoffsets, hinLine, -, hundo, hback, hwhile⟩ := run_between_characters hms
  have hanswers : ((ofLine line 4).run ms).1 =
      [.char (some 'é'), .nothing, .read true, .read true, .nothing, .nothing] := by decide +kernel
  have hplace : c.start = 2 ∧ c.pos = 8 ∧ c.token = ['𝄞', ' ', 'a'] ∧ c.rest = ['b'] := by decide +kernel
  obtain ⟨hstart, hpos, htoken, hrest⟩ := hplace
  have hslice := hinLine.token
  rw [hanswers] at hoffsets
  rw [htoken] at hslice
  have hrs : ∀ m ∈ rs, m.onward = true := by decide
  have hlength : c.token.length ≤ 7 := by rw [htoken]; decide
  obtain ⟨-, -, -, -, hrewound⟩ := hback 7
  obtain ⟨read, hread, hlongest, -⟩ := hwhile Char.isAlpha
  have hprefix : ['b'] <+: c.rest := hrest ▸ List.prefix_refl _
  have hall : ∀ d ∈ ['b'], d.isAlpha = true := List.forall_mem_singleton.2 (by decide)
  refine ⟨hms, ?_, hslice, hrs, hundo rs hrs, hlength, (hrewound hlength).trans hstart, read, hread, hprefix,
    hall, hlongest.longest ['b'] hprefix hall⟩
  rw [← hstart, ← hpos]
  exact hoffsets

end Cursor

end ShaderText
