/-
The lines that indenting anew writes. Each is written in the state that lexing the lines written
above it leaves, and it depends on the old line only through what may not change: the whole line
inside a literal, and else what stands behind the leading blanks. The written lines stand in the new
text as they were written, but for a last one that is left without characters.
-/
import Mathlib.Data.List.DropRight
import ShaderText.Proofs.Lexing.Step
import ShaderText.Proofs.Text.Columns
import ShaderText.Proofs.Text.Lines
import ShaderText.Reindent

namespace ShaderText

/-! ## Leading blanks -/

theorem trimLeading_trimLeading (cs : List Char) : trimLeading (trimLeading cs) = trimLeading cs :=
  List.dropWhile_idempotent isBlank cs

theorem leadingBlanks_trimLeading (cs : List Char) : leadingBlanks (trimLeading cs) = [] := by
  have h := leadingBlanks_append_trimLeading (trimLeading cs)
  rw [trimLeading_trimLeading] at h
  simpa using h

/-- Blanks end in the first of two texts, or the second has none to add. -/
theorem trimLeading_append {front more : List Char} (h : trimLeading front = [] → leadingBlanks more = []) :
    trimLeading (front ++ more) = trimLeading front ++ more := by
  by_cases hblank : trimLeading front = []
  · have hall := List.dropWhile_eq_nil_iff.1 hblank
    have hmore := leadingBlanks_append_trimLeading more
    rw [h hblank, List.nil_append] at hmore
    rw [hblank, List.nil_append, trimLeading, List.dropWhile_append_of_pos hall]
    exact hmore
  · have hempty : (front.dropWhile isBlank).isEmpty = false := List.isEmpty_eq_false_iff.2 hblank
    rw [trimLeading, List.dropWhile_append, hempty]
    rfl

theorem leadingBlanks_append {front more : List Char} (h : trimLeading front = [] → leadingBlanks more = []) :
    leadingBlanks (front ++ more) = leadingBlanks front := by
  have hcut := leadingBlanks_append_trimLeading (front ++ more)
  rw [trimLeading_append h, ← List.append_assoc] at hcut
  have hfront := List.append_cancel_right hcut
  have hwhole := leadingBlanks_append_trimLeading front
  exact List.append_cancel_right (hfront.trans hwhole.symm)

theorem leadingBlanks_replicate_append (n : Nat) (cs : List Char) :
    leadingBlanks (List.replicate n ' ' ++ cs) = List.replicate n ' ' ++ leadingBlanks cs := by
  refine List.takeWhile_append_of_pos fun c hc => ?_
  rw [List.eq_of_mem_replicate hc]
  decide

theorem trimLeading_replicate_append (n : Nat) (cs : List Char) :
    trimLeading (List.replicate n ' ' ++ trimLeading cs) = trimLeading cs := by
  have hcut := leadingBlanks_append_trimLeading (List.replicate n ' ' ++ trimLeading cs)
  rw [leadingBlanks_replicate_append, leadingBlanks_trimLeading, List.append_nil] at hcut
  exact List.append_cancel_left hcut

theorem columnWidth_replicate (tabSize : Nat) {n : Nat} (h : n < UInt64.size) :
    columnWidth tabSize (List.replicate n ' ') = n := by
  have hzero : 0 + n < UInt64.size := by omega
  rw [columnWidth, columnFrom_replicate_space tabSize hzero, Nat.zero_add]

theorem mem_of_mem_trimLeading {c : Char} {cs : List Char} (h : c ∈ trimLeading cs) : c ∈ cs :=
  (List.dropWhile_sublist _).subset h

theorem getLast?_trimLeading {cs : List Char} (h : trimLeading cs ≠ []) :
    (trimLeading cs).getLast? = cs.getLast? := by
  have hlast := List.getLast?_append_of_ne_nil (leadingBlanks cs) h
  rw [leadingBlanks_append_trimLeading] at hlast
  exact hlast.symm

namespace Mode

theorem indent_trimLeading (m : Mode) (s : State) (text : List Char) :
    m.indent s (trimLeading text) = m.indent s text := by
  rw [indent, indent, trimLeading_trimLeading]

/-! ## One line -/

theorem reindentLine_of_inLiteral (m : Mode) {s : State} (h : s.inLiteral = true) (line : List Char) :
    m.reindentLine s line = line := by
  rw [reindentLine, if_pos h]

theorem reindentLine_of_blank (m : Mode) {s : State} (h : s.inLiteral = false) {line : List Char}
    (hblank : trimLeading line = []) : m.reindentLine s line = [] := by
  simp [reindentLine, h, hblank]

theorem reindentLine_of_content (m : Mode) {s : State} (h : s.inLiteral = false) {line : List Char}
    (hcontent : trimLeading line ≠ []) :
    m.reindentLine s line = List.replicate (m.indent s line) ' ' ++ trimLeading line := by
  simp [reindentLine, h, hcontent, indent_trimLeading]

/-- What indenting anew may not change in a line that starts in state `s`. -/
def fixedPart (s : State) (line : List Char) : List Char :=
  if s.inLiteral then line else trimLeading line

theorem reindentLine_congr (m : Mode) {s : State} {line line' : List Char}
    (h : fixedPart s line = fixedPart s line') : m.reindentLine s line = m.reindentLine s line' := by
  unfold fixedPart at h
  unfold reindentLine
  cases hlit : s.inLiteral <;> simp_all

theorem fixedPart_reindentLine (m : Mode) (s : State) (line : List Char) :
    fixedPart s (m.reindentLine s line) = fixedPart s line := by
  unfold fixedPart
  split
  · rw [m.reindentLine_of_inLiteral ‹_›]
  · rw [trimLeading_reindentLine]

/-- A line indented anew stays as it is when it is indented anew. -/
theorem reindentLine_reindentLine (m : Mode) (s : State) (line : List Char) :
    m.reindentLine s (m.reindentLine s line) = m.reindentLine s line :=
  m.reindentLine_congr (fixedPart_reindentLine m s line)

/-- A line that is not kept whole has the indentation that the mode proposes for it as it is now. -/
theorem leadingBlanks_reindentLine (m : Mode) {s : State} (h : s.inLiteral = false) {line : List Char}
    (hcontent : trimLeading line ≠ []) :
    leadingBlanks (m.reindentLine s line) =
      List.replicate (m.indent s (m.reindentLine s line)) ' ' := by
  rw [← m.indent_trimLeading s (m.reindentLine s line), trimLeading_reindentLine, indent_trimLeading,
    m.reindentLine_of_content h hcontent, leadingBlanks_replicate_append, leadingBlanks_trimLeading,
    List.append_nil]

theorem bodyStops_reindentLine (m : Mode) (s : State) {line : TextLine} (h : line.BodyStops) :
    TextLine.BodyStops { line with body := m.reindentLine s line.body } := by
  cases hlit : s.inLiteral with
  | true =>
    rw [m.reindentLine_of_inLiteral hlit]
    exact h
  | false =>
    by_cases hblank : trimLeading line.body = []
    · rw [m.reindentLine_of_blank hlit hblank]
      exact ⟨List.not_mem_nil, fun _ => by simp⟩
    · rw [m.reindentLine_of_content hlit hblank]
      -- spaces hold no line feed, and the last character is that of the old body
      refine ⟨fun hmem => ?_, fun he => ?_⟩
      · rcases List.mem_append.1 hmem with hspace | hbody
        · cases (List.mem_replicate.1 hspace).2
        · exact h.noFeed (mem_of_mem_trimLeading hbody)
      · rw [List.getLast?_append_of_ne_nil _ hblank, getLast?_trimLeading hblank]
        exact h.noReturn he

/-! ## All lines -/

/-- Lines are indented anew in the states that lexing the new lines goes through. -/
theorem snd_reindentLines (m : Mode) (lines : List TextLine) (s : State) :
    (m.reindentLines lines s).2 = m.stateAfter ((m.reindentLines lines s).1.map TextLine.body) s := by
  induction lines generalizing s with
  | nil => rfl
  | cons line lines ih => exact ih _

theorem reindentLines_append (m : Mode) (xs ys : List TextLine) (s : State) :
    m.reindentLines (xs ++ ys) s =
      ((m.reindentLines xs s).1 ++ (m.reindentLines ys (m.reindentLines xs s).2).1,
        (m.reindentLines ys (m.reindentLines xs s).2).2) := by
  induction xs generalizing s with
  | nil => rfl
  | cons x xs ih => simp [reindentLines, ih]

theorem take_reindentLines (m : Mode) (lines : List TextLine) (s : State) (i : Nat) :
    (m.reindentLines (lines.take i) s).1 = (m.reindentLines lines s).1.take i := by
  induction lines generalizing s i with
  | nil => simp [reindentLines]
  | cons line lines ih =>
    cases i with
    | zero => rfl
    | succ i => simp [reindentLines, ih]

theorem length_reindentLines (m : Mode) (lines : List TextLine) (s : State) :
    (m.reindentLines lines s).1.length = lines.length := by
  rw [← List.length_map TextLine.ending, map_ending_reindentLines, List.length_map]

theorem getElem?_reindentLines (m : Mode) (lines : List TextLine) (s : State) (i : Nat) :
    (m.reindentLines lines s).1[i]? = lines[i]?.map fun line =>
      { line with body := m.reindentLine (m.reindentLines (lines.take i) s).2 line.body } := by
  induction lines generalizing s i with
  | nil => rfl
  | cons line lines ih =>
    cases i with
    | zero => rfl
    | succ i => exact ih _ i

theorem reindentLines_reindentLines (m : Mode) (lines : List TextLine) (s : State) :
    m.reindentLines (m.reindentLines lines s).1 s = m.reindentLines lines s := by
  induction lines generalizing s with
  | nil => rfl
  | cons line lines ih => simp [reindentLines, reindentLine_reindentLine, ih]

theorem separated_reindentLines (m : Mode) {lines : List TextLine} (h : Separated lines) (s : State) :
    Separated (m.reindentLines lines s).1 := by
  induction lines generalizing s with
  | nil => trivial
  | cons line lines ih =>
    obtain ⟨hstops, hlast, hlines⟩ := h
    refine ⟨bodyStops_reindentLine m s hstops, fun he => ?_, ih hlines _⟩
    rw [hlast he]
    rfl

/-! ## The whole text -/

/-- The lines that indenting a text anew writes. -/
def writtenLines (m : Mode) (text : List Char) : List TextLine :=
  (m.reindentLines (textLines text) (m.start 0)).1

/-- The state in which line `i` is written when a text is indented anew. -/
def writingState (m : Mode) (text : List Char) (i : Nat) : State :=
  (m.reindentLines ((textLines text).take i) (m.start 0)).2

theorem getElem?_writtenLines (m : Mode) (text : List Char) (i : Nat) :
    (m.writtenLines text)[i]? = (textLines text)[i]?.map fun line =>
      { line with body := m.reindentLine (m.writingState text i) line.body } :=
  m.getElem?_reindentLines _ _ i

/-- The state in which a line is written depends on the written lines alone. -/
theorem writingState_eq (m : Mode) (text : List Char) (i : Nat) :
    m.writingState text i =
      m.stateAfter (((m.writtenLines text).take i).map TextLine.body) (m.start 0) := by
  rw [writingState, snd_reindentLines, writtenLines, take_reindentLines]

theorem textLines_reindent (m : Mode) (text : List Char) :
    textLines (m.reindent text) = (m.writtenLines text).filter (fun line => line.chars ≠ []) :=
  textLines_joinLines (m.separated_reindentLines (separated_textLines text) _)

/-- The lines of a text indented anew are the written ones, but for a last one without characters. -/
theorem writtenLines_eq_or (m : Mode) (text : List Char) :
    textLines (m.reindent text) = m.writtenLines text ∨
      m.writtenLines text = textLines (m.reindent text) ++ [⟨[], .none⟩] := by
  rw [textLines_reindent]
  exact (m.separated_reindentLines (separated_textLines text) _).filter_chars

/-- A written line that has characters is kept in its place. -/
theorem getElem?_textLines_reindent (m : Mode) {text : List Char} {i : Nat} {line : TextLine}
    (h : (m.writtenLines text)[i]? = some line) (hchars : line.chars ≠ []) :
    (textLines (m.reindent text))[i]? = some line := by
  rcases m.writtenLines_eq_or text with heq | heq
  · rw [heq, h]
  · rw [heq] at h
    by_cases hi : i < (textLines (m.reindent text)).length
    · rwa [List.getElem?_append_left hi] at h
    · -- the line without characters stands behind the kept ones
      rw [List.getElem?_append_right (Nat.le_of_not_lt hi), List.getElem?_singleton] at h
      split at h
      · cases h
        exact absurd rfl hchars
      · cases h

end Mode

end ShaderText
