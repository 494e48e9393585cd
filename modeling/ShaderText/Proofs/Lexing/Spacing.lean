/-
Blanks and layout settings carry no meaning. Take the tokens of a line and lay their texts out again, in
order and with any blanks between them; read what comes out with another unit of indentation and another
tab size, from a state whose levels are of the same kinds and aligned alike. Then the tokens are the same,
and so are the kinds and the alignments of the levels behind them.

Each token is read again before the blank behind it; and the start of a line decides the alignments that
were not known, so two runs that differ there come together where a line starts.
-/
import ShaderText.Proofs.Lexing.Invisible
import ShaderText.Proofs.Lexing.Reachable
import ShaderText.Proofs.Lexing.Tiling

namespace ShaderText

/-! ## Texts with blanks between them -/

/-- The texts in order, with blanks behind each of them but the last. -/
def Spaced : List (List Char) → List Char → Prop
  | [], body => body = []
  | text :: texts, body => ∃ gap rest, body = text ++ (gap ++ rest) ∧ (∀ c ∈ gap, isBlank c = true) ∧
      (gap = [] ↔ texts = []) ∧ Spaced texts rest

/-- The line is any blanks, then the texts in order with blanks between them, and nothing behind the
last. -/
def LaidOut (texts : List (List Char)) (line : List Char) : Prop :=
  ∃ lead body, line = lead ++ body ∧ (∀ c ∈ lead, isBlank c = true) ∧ Spaced texts body

/-! ## States of one shape -/

namespace State

/-- States that agree in the region and in the kinds and alignments of their levels, where an alignment
that is not known counts as false. -/
structure SameShape (s s' : State) : Prop where
  region : s.region = s'.region
  shape : s.nesting.shape = s'.nesting.shape

/-- States that agree in the region, in the flag of the line start, and in the kinds and alignments of
their levels as far as these are known. -/
structure SameMarks (s s' : State) : Prop where
  region : s.region = s'.region
  startOfLine : s.startOfLine = s'.startOfLine
  marks : s.nesting.marks = s'.nesting.marks

variable {s s' : State}

theorem MayStart.shape_eq (h : s.MayStart s') : s'.nesting.shape = s.nesting.shape := by
  rcases h.nesting_eq with heq | heq
  · rw [heq]
  · rw [heq, Nesting.shape_settle_false]

/-- The start of a line decides what is not known, and so brings the two states together. -/
theorem SameShape.atLineStart (h : s.SameShape s') (hs : s.Regular) (hs' : s'.Regular) (i i' : Nat) :
    (s.atLineStart i).SameMarks (s'.atLineStart i') := by
  refine ⟨h.region, rfl, ?_⟩
  have hshape : (s.nesting.settle false).shape = (s'.nesting.settle false).shape := by
    rw [Nesting.shape_settle_false, Nesting.shape_settle_false, h.shape]
  show (s.nesting.settle false).marks = (s'.nesting.settle false).marks
  rw [(hs.decided false).marks_eq, (hs'.decided false).marks_eq, hshape]

/-- States of one shape stay so behind the start of a line. -/
theorem MayStart.sameShape {r r' : State} (h : s.MayStart r) (hshape : r.SameShape r')
    (h' : s'.MayStart r') : s.SameShape s' :=
  ⟨h.region_eq.symm.trans (hshape.region.trans h'.region_eq),
    h.shape_eq.symm.trans (hshape.shape.trans h'.shape_eq)⟩

theorem SameMarks.sameShape (h : s.SameMarks s') : s.SameShape s' := by
  refine ⟨h.region, ?_⟩
  rw [Nesting.shape_eq_map_marks, Nesting.shape_eq_map_marks, h.marks]

theorem SameMarks.afterLexeme (h : s.SameMarks s') (x : Lexeme) (column column' : Nat) :
    (s.afterLexeme x column).SameMarks (s'.afterLexeme x column') := by
  refine ⟨?_, ?_, ?_⟩
  · rw [region_afterLexeme, region_afterLexeme]
  · rw [startOfLine_afterLexeme, startOfLine_afterLexeme, h.startOfLine]
  · unfold State.afterLexeme
    split
    · exact h.marks
    · exact Nesting.marks_update (Nesting.marks_settle h.marks true) x.signal _ _ _ _

end State

namespace Mode

/-! ## One line -/

/-- The mode with other settings for columns. -/
def withLayout (m : Mode) (indentUnit tabSize : Nat) : Mode :=
  { m with indentUnit := indentUnit, tabSize := tabSize }

/-- Leading blanks may be skipped. -/
theorem exists_skipped (m : Mode) {c : Cursor} {s : State} (hs : s.enter c = s) {lead more : List Char}
    (hlead : ∀ d ∈ lead, isBlank d = true) (hrest : c.rest = lead ++ more) :
    ∃ c', c'.rest = more ∧ s.enter c' = s ∧ m.lexFrom c s = m.lexFrom c' s := by
  by_cases hnil : lead = []
  · exact ⟨c, by simpa [hnil] using hrest, hs, rfl⟩
  · have hmoved : (c.startToken.take lead.length).atLineStart = false :=
      Cursor.atLineStart_take (c := c.startToken) (by simp [hrest, hnil]) (List.length_pos_iff.2 hnil)
    refine ⟨c.startToken.take lead.length, by simp [hrest], s.enter_of_not_atLineStart hmoved, ?_⟩
    rw [m.lexFrom_of_blanks s hnil hlead hrest, hs]

/-- A lexeme is read again with blanks behind it, or as the last of its line. -/
theorem lexeme_laidOut {m : Mode} (h : m.hooks.OnlyDirectives) {c c' : Cursor} {s s' : State} {x : Lexeme}
    (hs : s.SameMarks s') (hrest : c.rest ≠ []) (hx : m.lexeme c s = x) {more : List Char}
    (hrest' : c'.rest = c.rest.take x.length ++ more) (hmore : ∀ d ∈ more.head?, isBlank d = true)
    (hlast : c.rest.length ≤ x.length → more = []) : m.lexeme c' s' = x := by
  by_cases hlt : x.length < c.rest.length
  · subst hx
    exact lexeme_take_append h hrest hlt (.inr hmore) hrest' hs.region hs.startOfLine
  · have hall := Nat.le_of_not_lt hlt
    rw [hlast hall, List.append_nil, List.take_of_length_le hall] at hrest'
    rw [← hx]
    exact (lexeme_congr h hrest'.symm hs.region hs.startOfLine).symm

/-- What is laid out again is read again to the end of the line. -/
theorem lexFrom_laidOut {m : Mode} (h : m.hooks.OnlyDirectives) (unit tabSize : Nat) {c c' : Cursor}
    {s s' : State} (hc : s.enter c = s) (hc' : s'.enter c' = s') (hs : s.SameMarks s')
    (hline : LaidOut ((m.lexFrom c s).1.map Token.text) c'.rest) :
    ((m.withLayout unit tabSize).lexFrom c' s').1.map Token.plain =
        (m.lexFrom c s).1.map Token.plain ∧
      (m.lexFrom c s).2.SameMarks ((m.withLayout unit tabSize).lexFrom c' s').2 := by
  induction c, s, hc using m.entered_induction generalizing c' s' with
  | atEnd c s _ hrest =>
    rw [m.lexFrom_of_end s hrest] at hline ⊢
    obtain ⟨lead, body, hrest', hlead, rfl⟩ := hline
    obtain ⟨c'', hend, -, hskip⟩ := (m.withLayout unit tabSize).exists_skipped hc' hlead hrest'
    rw [hskip, lexFrom_of_end _ s' hend]
    exact ⟨rfl, hs⟩
  | blanks c s hc _ hblank ih =>
    rw [m.lexFrom_of_blank hc hblank] at hline ⊢
    exact ih hc' hs hline
  | lexeme c s x hc _ hrest hblank hx ih =>
    rw [m.lexFrom_of_lexeme hc hrest hblank hx] at hline ⊢
    obtain ⟨lead, body, hbody, hlead, gap, rest, rfl, hgap, hlast, hspaced⟩ := hline
    obtain ⟨c'', hrest', hc'', hskip⟩ := (m.withLayout unit tabSize).exists_skipped hc' hlead hbody
    simp only at hrest'
    have hle : x.length ≤ c.rest.length := hx ▸ m.length_lexeme_le c.startToken s
    have hpos : 0 < x.length := hx ▸ m.length_lexeme_pos (c := c.startToken) s hrest
    have hmore : ∀ d ∈ (gap ++ rest).head?, isBlank d = true := by
      cases gap with
      | nil =>
        rw [hlast.1 rfl] at hspaced
        simp [show rest = [] from hspaced]
      | cons d gap => simpa using hgap d (List.mem_cons_self ..)
    have hnone : c.rest.length ≤ x.length → gap ++ rest = [] := by
      intro hall
      rw [m.lexFrom_of_end _ (List.drop_eq_nil_of_le hall)] at hlast hspaced
      rw [hlast.2 rfl, show rest = [] from hspaced, List.nil_append]
    -- the token is read again, and what is left is laid out as before
    obtain ⟨hne, hblank', htext, hdrop⟩ := (startsInk_take hrest hblank hpos).parts
      (List.length_take_of_le hle) hrest'
    have hx' : (m.withLayout unit tabSize).lexeme c''.startToken s' = x :=
      lexeme_laidOut (c := c.startToken) h hs hrest hx hrest' hmore hnone
    have hbehind : (s'.afterLexeme x c''.startToken.column).enter (c''.startToken.take x.length) =
        s'.afterLexeme x c''.startToken.column := State.enter_take _ hne hpos
    obtain ⟨htokens, hfinal⟩ := ih hbehind (hs.afterLexeme x _ _) ⟨gap, rest, hdrop, hgap, hspaced⟩
    rw [hskip, lexFrom_of_lexeme _ hc'' hne hblank' hx', List.map_cons, List.map_cons, htokens]
    refine ⟨?_, hfinal⟩
    simp only [Token.plain, htext]

/-! ## Lines -/

/-- Up to the start of a line the tokens and the state behind it are those of its content. -/
theorem lexLine_mayStart (m : Mode) (line : List Char) (s : State) :
    (m.lexLine line s).1 = (m.lexFrom (m.cursor line) (s.atLineStart (m.indentationOf line))).1 ∧
      (m.lexLine line s).2.MayStart
        (m.lexFrom (m.cursor line) (s.atLineStart (m.indentationOf line))).2 := by
  by_cases hline : line = []
  · rw [hline, m.lexLine_nil, m.lexFrom_of_end _ rfl]
    exact ⟨rfl, .inr ⟨_, rfl⟩⟩
  · rw [m.lexLine_eq_lexFrom_cursor s hline]
    exact ⟨rfl, .inl rfl⟩

/-- A line whose tokens are laid out again has the same tokens, and the levels behind it are of the same
kinds and aligned alike. -/
theorem lexLine_laidOut {m : Mode} (h : m.hooks.OnlyDirectives) (unit tabSize : Nat) {s s' : State}
    (hs : s.Regular) (hs' : s'.Regular) (hshape : s.SameShape s') {line line' : List Char}
    (hline : LaidOut ((m.lexLine line s).1.map Token.text) line') :
    ((m.withLayout unit tabSize).lexLine line' s').1.map Token.plain =
        (m.lexLine line s).1.map Token.plain ∧
      (m.lexLine line s).2.SameShape ((m.withLayout unit tabSize).lexLine line' s').2 := by
  obtain ⟨htokens, hfinal⟩ := m.lexLine_mayStart line s
  obtain ⟨htokens', hfinal'⟩ := (m.withLayout unit tabSize).lexLine_mayStart line' s'
  rw [htokens] at hline ⊢
  rw [htokens']
  obtain ⟨hsame, hmarks⟩ := lexFrom_laidOut h unit tabSize (m.enter_cursor line s)
    ((m.withLayout unit tabSize).enter_cursor line' s') (hshape.atLineStart hs hs' _ _) hline
  exact ⟨hsame, hfinal.sameShape hmarks.sameShape hfinal'⟩

/-- Blanks and layout settings carry no meaning. Where the tokens of each line are laid out again, with any
blanks in front and between them, and read with another unit of indentation and another tab size from a
state whose levels are of the same kinds and aligned alike, the tokens are the same on every line, and so
are the region, the kinds and the alignments behind them. In a regular state, as all are that lexing reaches,
no level but the innermost has an alignment that is not known. -/
theorem lexLines_laidOut {m : Mode} (h : m.hooks.OnlyDirectives) (unit tabSize : Nat) {s s' : State}
    (hs : s.Regular) (hs' : s'.Regular) (hshape : s.SameShape s') {lines lines' : List (List Char)}
    (hlines : List.Forall₂ LaidOut ((m.lexLines lines s).1.map (·.map Token.text)) lines') :
    ((m.withLayout unit tabSize).lexLines lines' s').1.map (·.map Token.plain) =
        (m.lexLines lines s).1.map (·.map Token.plain) ∧
      (m.stateAfter lines s).SameShape ((m.withLayout unit tabSize).stateAfter lines' s') := by
  induction lines generalizing s s' lines' with
  | nil =>
    obtain rfl := List.forall₂_nil_left_iff.1 hlines
    exact ⟨rfl, hshape⟩
  | cons line lines ih =>
    obtain ⟨line', lines', hline, hnext, rfl⟩ := List.forall₂_cons_left_iff.1 hlines
    obtain ⟨htokens, hbehind⟩ := lexLine_laidOut h unit tabSize hs hs' hshape hline
    obtain ⟨hrows, hfinal⟩ := ih (hs.lexLine m line) (hs'.lexLine _ line') hbehind hnext
    refine ⟨?_, hfinal⟩
    simp only [lexLines, List.map_cons, htokens, hrows]

/-- Below an open parenthesis, with a line that holds a trigger behind a word and ends in an open comment:
whether a directive has decided how the parenthesis is aligned makes no difference. -/
theorem lexLines_laidOut_trigger :
    let m : Mode := { bare with hooks := .shader }
    let s := (m.lexLine ['('] (m.start 0)).2
    let s' := (m.lexLine ['#'] s).2
    let line := ['a', '#', 'b', '/', '*', 'c']
    let line' := [' ', 'a', '\t', '#', 'b', ' ', ' ', '/', '*', 'c']
    m.hooks.OnlyDirectives ∧ s.Regular ∧ s'.Regular ∧ s ≠ s' ∧ s.SameShape s' ∧
      List.Forall₂ LaidOut ((m.lexLines [line] s).1.map (·.map Token.text)) [line'] ∧
      ((m.withLayout 8 3).lexLines [line'] s').1.map (·.map Token.plain) =
        [[(.word, ['a']), (.word, ['#', 'b']), (.comment, ['/', '*', 'c'])]] ∧
      (m.stateAfter [line] s).SameShape ((m.withLayout 8 3).stateAfter [line'] s') := by
  intro m s s' line line'
  have hhooks : m.hooks.OnlyDirectives := HookTable.onlyDirectives_shader
  have hs : s.Regular := (State.regular_start m 0).lexLine m ['(']
  have hs' : s'.Regular := hs.lexLine m ['#']
  have hshape : s.SameShape s' := ⟨by decide +kernel, by decide +kernel⟩
  have htexts : (m.lexLines [line] s).1.map (·.map Token.text) = [[['a'], ['#', 'b'], ['/', '*', 'c']]] := by
    decide +kernel
  have hlaid : LaidOut [['a'], ['#', 'b'], ['/', '*', 'c']] line' := by
    have hblank {gap : List Char} (h : gap.all isBlank = true) : ∀ d ∈ gap, isBlank d = true :=
      List.all_eq_true.1 h
    exact ⟨[' '], _, rfl, hblank rfl, ['\t'], _, rfl, hblank rfl, by simp,
      [' ', ' '], _, rfl, hblank rfl, by simp, [], [], rfl, hblank rfl, by simp, rfl⟩
  have hlines : List.Forall₂ LaidOut ((m.lexLines [line] s).1.map (·.map Token.text)) [line'] := by
    rw [htexts]
    exact .cons hlaid .nil
  obtain ⟨htokens, hfinal⟩ := lexLines_laidOut hhooks 8 3 hs hs' hshape hlines
  refine ⟨hhooks, hs, hs', by decide +kernel, hshape, hlines, ?_, hfinal⟩
  rw [htokens]
  decide +kernel

end Mode

end ShaderText
