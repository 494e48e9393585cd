/-
Reading a line gets to its end and loses nothing. Every step reads at least one character and stops
between two characters of the line. The tokens lie one behind the other; each is the text of the line
between its two offsets, is not empty and starts with no blank; and what no token holds is a blank.
-/
import Mathlib.Data.List.Pairwise
import ShaderText.Proofs.Lexing.Trace
import ShaderText.Proofs.Text.Columns

namespace ShaderText

/-- A character of two texts put together is one of the first or one of the second. -/
theorem append_eq_append_cons {xs ys before after : List Char} {c : Char}
    (h : xs ++ ys = before ++ c :: after) :
    (∃ more, xs = before ++ c :: more) ∨ ∃ more, before = xs ++ more ∧ ys = more ++ c :: after := by
  rcases List.append_eq_append_iff.1 h with ⟨more, hbefore, hys⟩ | ⟨more, hxs, hafter⟩
  · exact .inr ⟨more, hbefore, hys⟩
  · cases more with
    | nil => exact .inr ⟨[], by simpa using hxs.symm, hafter.symm⟩
    | cons d more =>
      obtain ⟨rfl, -⟩ := List.cons.inj hafter
      exact .inl ⟨more, hxs⟩

/-! ## Tilings -/

/-- The text is not empty and starts with a character that is no blank. -/
def StartsInk (cs : List Char) : Prop := ∃ c rest, cs = c :: rest ∧ isBlank c = false

theorem StartsInk.ne_nil {cs : List Char} (h : StartsInk cs) : cs ≠ [] := by
  obtain ⟨c, rest, rfl, -⟩ := h
  simp

/-- The first characters of a text that starts with no blank. -/
theorem startsInk_take {cs : List Char} {n : Nat} (hcs : cs ≠ []) (hblank : leadingBlanks cs = [])
    (hn : 0 < n) : StartsInk (cs.take n) := by
  obtain ⟨c, rest, rfl⟩ := List.exists_cons_of_ne_nil hcs
  obtain ⟨n, rfl⟩ := Nat.exists_eq_succ_of_ne_zero (Nat.pos_iff_ne_zero.1 hn)
  refine ⟨c, rest.take n, rfl, ?_⟩
  cases hc : isBlank c with
  | false => rfl
  | true => simp [leadingBlanks, hc] at hblank

/-- A text that starts with no blank stands where it is read. -/
theorem StartsInk.parts {text more cs : List Char} {n : Nat} (h : StartsInk text) (hlength : text.length = n)
    (hcs : cs = text ++ more) :
    cs ≠ [] ∧ leadingBlanks cs = [] ∧ cs.take n = text ∧ cs.drop n = more := by
  obtain ⟨c, rest, rfl, hc⟩ := h
  subst hcs
  exact ⟨List.cons_ne_nil _ _, List.takeWhile_cons_of_neg (by simp [hc]), List.take_left' hlength,
    List.drop_left' hlength⟩

/-- The tokens lie in a text that starts at a byte offset, one behind the other, and between them
and around them are blanks. -/
inductive Tiles : Nat → List Char → List Token → Prop
  | blanks {start : Nat} {gap : List Char} : (∀ c ∈ gap, isBlank c = true) → Tiles start gap []
  | token {start : Nat} {gap rest : List Char} {t : Token} {ts : List Token} :
      (∀ c ∈ gap, isBlank c = true) → StartsInk t.text →
      t.start = start + byteLength gap → t.stop = t.start + byteLength t.text →
      Tiles t.stop rest ts → Tiles start (gap ++ t.text ++ rest) (t :: ts)

/-- A token is the text between its two offsets in a line, and it starts with no blank. -/
structure Token.OnLine (t : Token) (line : List Char) : Prop where
  ordered : t.start < t.stop
  text : ∃ before after, line = before ++ t.text ++ after ∧ t.start = byteLength before ∧
    t.stop = byteLength (before ++ t.text)
  starts : StartsInk t.text

namespace Token.OnLine

variable {t : Token} {line : List Char}

theorem isBoundary_start (h : t.OnLine line) : IsBoundary line t.start := by
  obtain ⟨before, after, rfl, hstart, -⟩ := h.text
  exact ⟨before, t.text ++ after, List.append_assoc .., hstart⟩

theorem isBoundary_stop (h : t.OnLine line) : IsBoundary line t.stop := by
  obtain ⟨before, after, rfl, -, hstop⟩ := h.text
  exact ⟨before ++ t.text, after, rfl, hstop⟩

/-- A token takes columns, as long as they fit. -/
theorem columnAt_lt (h : t.OnLine line) {tabSize : Nat} (hfits : FitsTo tabSize line t.stop) :
    columnAt tabSize line t.start < columnAt tabSize line t.stop :=
  columnAt_lt_columnAt h.isBoundary_start h.isBoundary_stop h.ordered hfits

end Token.OnLine

namespace Tiles

variable {start : Nat} {cs gap : List Char} {ts : List Token}

/-- Blanks in front of a tiled text belong to no token. -/
theorem blanks_append (hgap : ∀ c ∈ gap, isBlank c = true)
    (h : Tiles (start + byteLength gap) cs ts) : Tiles start (gap ++ cs) ts := by
  cases h with
  | blanks hcs => exact .blanks (List.forall_mem_append.2 ⟨hgap, hcs⟩)
  | @token _ gap' rest t ts hgap' htext hstart hstop hts =>
    have hboth : ∀ c ∈ gap ++ gap', isBlank c = true := List.forall_mem_append.2 ⟨hgap, hgap'⟩
    have hstart' : t.start = start + byteLength (gap ++ gap') := by
      rw [hstart, byteLength_append, Nat.add_assoc]
    simpa using Tiles.token hboth htext hstart' hstop hts

theorem le_start (h : Tiles start cs ts) : ∀ t ∈ ts, start ≤ t.start := by
  induction h with
  | blanks _ => exact fun t ht => absurd ht List.not_mem_nil
  | token _ _ hstart hstop _ ih =>
    intro u hu
    rcases List.mem_cons.1 hu with rfl | hu
    · omega
    · have := ih u hu
      omega

/-- The tokens lie one behind the other. -/
theorem pairwise (h : Tiles start cs ts) : ts.Pairwise (·.stop ≤ ·.start) := by
  induction h with
  | blanks _ => exact .nil
  | token _ _ _ _ hts ih => exact .cons hts.le_start ih

/-- Each token is a piece of the text, at its offsets behind what lies before the text. -/
theorem onLine (front : List Char) (h : Tiles (byteLength front) cs ts) :
    ∀ t ∈ ts, t.OnLine (front ++ cs) := by
  generalize hs : byteLength front = start at h
  induction h generalizing front with
  | blanks _ => exact fun t ht => absurd ht List.not_mem_nil
  | @token start gap rest t ts _ htext hstart hstop _ ih =>
    have hfront : t.stop = byteLength (front ++ gap ++ t.text) := by
      rw [hstop, hstart, ← hs, byteLength_append, byteLength_append]
    intro u hu
    rcases List.mem_cons.1 hu with rfl | hu
    · have hpos := byteLength_pos htext.ne_nil
      refine ⟨by omega, ⟨front ++ gap, rest, by simp, ?_, hfront⟩, htext⟩
      rw [hstart, ← hs, byteLength_append]
    · have hline := ih _ hfront.symm u hu
      simpa using hline

/-- A character with a byte that no token holds is a blank. -/
theorem isBlank_of_outside (front : List Char) {before after : List Char} {c : Char} {byte : Nat}
    (h : Tiles (byteLength front) cs ts) (hcs : cs = before ++ c :: after)
    (hle : byteLength (front ++ before) ≤ byte) (hlt : byte < byteLength (front ++ before) + c.utf8Size)
    (houtside : ∀ t ∈ ts, byte < t.start ∨ t.stop ≤ byte) : isBlank c = true := by
  generalize hs : byteLength front = start at h
  induction h generalizing front before with
  | blanks hgap => exact hgap c (by rw [hcs]; simp)
  | @token start gap rest t ts hgap _ hstart hstop _ ih =>
    obtain ⟨ht, hts⟩ := List.forall_mem_cons.1 houtside
    rw [List.append_assoc] at hcs
    rcases append_eq_append_cons hcs with ⟨more, hmore⟩ | ⟨before', rfl, hrest⟩
    · exact hgap c (by rw [hmore]; simp)
    · -- behind the gap the character is in the token, against the hypothesis, or behind the token
      rcases append_eq_append_cons hrest with ⟨more, hmore⟩ | ⟨before'', rfl, hrest'⟩
      · have htext : byteLength t.text = byteLength before' + (c.utf8Size + byteLength more) := by
          rw [hmore, byteLength_append, byteLength]
        rw [byteLength_append, byteLength_append] at hle hlt
        omega
      · have hfront : t.stop = byteLength (front ++ gap ++ t.text) := by
          rw [hstop, hstart, ← hs, byteLength_append, byteLength_append]
        have hassoc : front ++ (gap ++ (t.text ++ before'')) = front ++ gap ++ t.text ++ before'' := by
          simp
        rw [hassoc] at hle hlt
        exact ih _ hrest' hle hlt hts hfront.symm

end Tiles

/-! ## Steps -/

namespace Mode

/-- A step starts where the last one stopped, reads at least one character, and changes nothing in
the line. -/
theorem pos_lt_pos_step (m : Mode) {c : Cursor} (s : State) (h : c.rest ≠ []) :
    (m.step c s).cursor.line = c.line ∧ (m.step c s).cursor.start = c.pos ∧
      c.pos < (m.step c s).cursor.pos := by
  obtain ⟨n, hcursor, hn⟩ := m.cursor_step c s
  have hn := hn h
  have hread : c.rest.take n ≠ [] := by
    rw [Ne, List.take_eq_nil_iff]
    rintro (h0 | h0)
    · omega
    · exact h h0
  have hpos : (c.startToken.take n).pos = c.pos + byteLength (c.rest.take n) := rfl
  rw [hcursor]
  exact ⟨by simp, rfl, by rw [hpos]; exact Nat.lt_add_of_pos_right (byteLength_pos hread)⟩

/-- Behind each step the cursor is in the same line. -/
theorem line_of_mem_stepsFrom (m : Mode) (c : Cursor) (s : State) :
    ∀ r ∈ m.stepsFrom c s, r.cursor.line = c.line := by
  induction c, s using m.reading_induction with
  | atEnd c s hrest => simp [m.stepsFrom_of_end s hrest]
  | step c s hrest ih =>
    rw [m.stepsFrom_of_rest s hrest, List.forall_mem_cons]
    refine ⟨m.line_step c s, fun r hr => ?_⟩
    rw [ih r hr, m.line_step]

theorem take_length_leadingBlanks (cs : List Char) :
    cs.take (leadingBlanks cs).length = leadingBlanks cs :=
  take_length_takeWhile isBlank cs

theorem token_take_leadingBlanks (c : Cursor) :
    (c.startToken.take (leadingBlanks c.rest).length).token = leadingBlanks c.rest :=
  take_length_leadingBlanks c.rest

/-- A step puts its token in front of those that tile what is left behind it. -/
theorem tiles_step (m : Mode) {c : Cursor} (s : State) (hrest : c.rest ≠ []) {ts : List Token}
    (h : Tiles (m.step c s).cursor.pos (m.step c s).cursor.rest ts) :
    Tiles c.pos c.rest ((m.step c s).token?.toList ++ ts) := by
  by_cases hblank : leadingBlanks c.rest = []
  · have hlen := m.length_lexeme_pos (c := c.startToken) (s.enter c) hrest
    rw [m.step_of_not_blank s hblank] at h ⊢
    generalize m.lexeme c.startToken (s.enter c) = x at h hlen ⊢
    have hnone : ∀ d ∈ ([] : List Char), isBlank d = true := fun d hd => absurd hd List.not_mem_nil
    have htoken := Tiles.token (t := ⟨x.category, c.rest.take x.length, c.pos,
      c.pos + byteLength (c.rest.take x.length)⟩) hnone (startsInk_take hrest hblank hlen) rfl rfl h
    rwa [List.nil_append, Cursor.rest_take, Cursor.rest_startToken, List.take_append_drop] at htoken
  · rw [m.step_of_blank s hblank] at h ⊢
    have hgap : ∀ d ∈ c.rest.take (leadingBlanks c.rest).length, isBlank d = true := by
      rw [take_length_leadingBlanks]
      exact fun d => isBlank_of_mem_leadingBlanks
    have htiles : Tiles c.pos _ ts := Tiles.blanks_append hgap h
    rwa [Cursor.rest_take, Cursor.rest_startToken, List.take_append_drop] at htiles

/-- From a cursor on, the tokens tile what is not read yet. -/
theorem tiles_lexFrom (m : Mode) (c : Cursor) (s : State) :
    Tiles c.pos c.rest (m.lexFrom c s).1 := by
  induction c, s using m.reading_induction with
  | atEnd c s hrest =>
    rw [m.lexFrom_of_end s hrest, hrest]
    exact .blanks fun c hc => absurd hc List.not_mem_nil
  | step c s hrest ih =>
    rw [m.lexFrom_of_rest s hrest]
    exact m.tiles_step s hrest ih

/-- A step starts and stops between two characters of its line. -/
theorem boundaries_of_mem_lineSteps (m : Mode) (line : List Char) (s : State) {r : Step}
    (hr : r ∈ m.lineSteps line s) :
    ∃ before token after, line = before ++ token ++ after ∧ r.cursor.start = byteLength before ∧
      r.cursor.pos = byteLength (before ++ token) :=
  ⟨r.cursor.before, r.cursor.token, r.cursor.rest, (m.line_of_mem_stepsFrom _ s r hr).symm,
    r.cursor.start_eq, r.cursor.pos_eq⟩

theorem tiles_lexLine (m : Mode) (line : List Char) (s : State) :
    Tiles (byteLength []) line (m.lexLine line s).1 :=
  m.tiles_lexFrom (m.cursor line) s

/-- Every step that is not at the end of its line reads on. A line is read to its end in at most as
many steps as it has characters, and all of them start and stop between two characters. Its tokens
are pieces of the line that start with no blank and lie one behind the other, and every byte outside
them is of a blank. -/
theorem lexLine_reads_all (m : Mode) (line : List Char) (s : State) :
    (∀ (c : Cursor) (s : State), c.rest ≠ [] →
      (m.step c s).cursor.line = c.line ∧ (m.step c s).cursor.start = c.pos ∧
        c.pos < (m.step c s).cursor.pos) ∧
    (∃ c, m.Reads (m.cursor line) s (m.lineSteps line s) c (m.lexLine line s).2 ∧ c.rest = []) ∧
    (m.lineSteps line s).length ≤ line.length ∧
    (∀ r ∈ m.lineSteps line s, ∃ before token after, line = before ++ token ++ after ∧
      r.cursor.start = byteLength before ∧ r.cursor.pos = byteLength (before ++ token)) ∧
    (m.lexLine line s).1 = (m.lineSteps line s).filterMap Step.token? ∧
    (∀ t ∈ (m.lexLine line s).1, t.OnLine line) ∧
    (m.lexLine line s).1.Pairwise (·.stop ≤ ·.start) ∧
    ∀ (before after : List Char) (c : Char) (byte : Nat), line = before ++ c :: after →
      byteLength before ≤ byte → byte < byteLength before + c.utf8Size →
      (∀ t ∈ (m.lexLine line s).1, byte < t.start ∨ t.stop ≤ byte) → isBlank c = true := by
  have htiles := m.tiles_lexLine line s
  refine ⟨fun c s h => m.pos_lt_pos_step s h, m.reads_stepsFrom _ s, m.length_stepsFrom_le _ s,
    fun r hr => m.boundaries_of_mem_lineSteps line s hr, m.lexFrom_eq_filterMap _ s,
    htiles.onLine [], htiles.pairwise, ?_⟩
  intro before after c byte hline hle hlt houtside
  exact htiles.isBlank_of_outside [] hline hle hlt houtside

-- in a string: a blank of three bytes that is no part of it, the end of the string, a word
example : (Mode.bare.lexLine ['\u3000', 'é', '"', 'x'] ⟨.string '"', .ofRoot 0, 0, true⟩).1 =
    [⟨.string, ['é', '"'], 3, 6⟩, ⟨.word, ['x'], 6, 7⟩] := by
  decide +kernel

end Mode

end ShaderText
