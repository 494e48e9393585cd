/-
The signals of a line that is read in code, in a mode whose hooks are all directives. They depend on
nothing but what stands behind the leading blanks, a brace there is the first of them unless it starts
a directive, and they make of the layout what the line makes of it.
-/
import ShaderText.Proofs.Lexing.Alike
import ShaderText.Proofs.Lexing.Layout
import ShaderText.Proofs.Nesting.Statements

namespace ShaderText

namespace Mode

variable {m : Mode}

/-! ## The same text in different states -/

/-- Parallel runs read the same signals to the ends of their lines, and end in the same region. -/
theorem Parallel.stepsFrom (h : m.hooks.OnlyDirectives) {c c' : Cursor} {s s' : State}
    (hp : Parallel c c' s s') :
    signalsRead (m.stepsFrom c s) = signalsRead (m.stepsFrom c' s') ∧
      (m.lexFrom c s).2.region = (m.lexFrom c' s').2.region := by
  induction c, s using m.reading_induction generalizing c' s' with
  | atEnd c s hrest =>
    have hrest' : c'.rest = [] := hp.rest ▸ hrest
    rw [m.stepsFrom_of_end s hrest, m.stepsFrom_of_end s' hrest', m.lexFrom_of_end s hrest,
      m.lexFrom_of_end s' hrest']
    exact ⟨rfl, hp.region⟩
  | step c s hrest ih =>
    have hrest' : c'.rest ≠ [] := hp.rest ▸ hrest
    obtain ⟨hlexeme, -, hnext⟩ := hp.step h hrest
    obtain ⟨hsignals, hregion⟩ := ih hnext
    rw [m.stepsFrom_of_rest s hrest, m.stepsFrom_of_rest s' hrest', signalsRead_cons, signalsRead_cons,
      Step.signal?, Step.signal?, hlexeme, hsignals, m.lexFrom_of_rest s hrest, m.lexFrom_of_rest s' hrest']
    exact ⟨rfl, hregion⟩

/-- The leading blanks of a line have no signals. -/
theorem signalsRead_lineSteps (m : Mode) {line : List Char} (s : State) (h : line ≠ []) :
    signalsRead (m.lineSteps line s) =
      signalsRead (m.stepsFrom (m.contentCursor line) (s.atLineStart (m.indentationOf line))) := by
  have hstart : (m.cursor line).atLineStart = true := rfl
  by_cases hblank : leadingBlanks line = []
  · rw [m.contentCursor_of_no_blanks hblank, m.lineSteps_eq_stepsFrom_cursor s h]
  · rw [lineSteps, m.stepsFrom_of_rest s h, m.step_of_blank (c := m.cursor line) s hblank,
      s.enter_of_atLineStart hstart, signalsRead_cons]
    rfl

/-! ## The signals of a line -/

/-- Read in code, the line has significant tokens with these signals, and it ends in code: every comment
and string on it is closed. -/
structure HasSignals (m : Mode) (line : List Char) (xs : List (Option Signal)) : Prop where
  signals : signalsRead (m.lineSteps line (m.start 0)) = xs
  closed : (m.lexLine line (m.start 0)).2.region = .code

/-- A line has its signals in whatever state of code it is read, and however far it is indented. -/
theorem HasSignals.anywhere (h : m.hooks.OnlyDirectives) {line line' : List Char}
    {xs : List (Option Signal)} (hline : m.HasSignals line xs)
    (htrim : trimLeading line' = trimLeading line) (hne : trimLeading line ≠ []) {s : State}
    (hs : s.region = .code) :
    signalsRead (m.lineSteps line' s) = xs ∧ (m.lexLine line' s).2.region = .code := by
  have hne' : trimLeading line' ≠ [] := htrim ▸ hne
  have hline_ne : line ≠ [] := fun hnil => hne (by rw [hnil]; rfl)
  have hline_ne' : line' ≠ [] := fun hnil => hne' (by rw [hnil]; rfl)
  have hp : Parallel (m.contentCursor line) (m.contentCursor line')
      ((m.start 0).atLineStart (m.indentationOf line)) (s.atLineStart (m.indentationOf line')) := by
    refine ⟨?_, hs.symm, rfl, fun _ => rfl, fun _ => rfl⟩
    rw [rest_contentCursor, rest_contentCursor, htrim]
  obtain ⟨hsignals, hregion⟩ := hp.stepsFrom h
  rw [← m.signalsRead_lineSteps _ hline_ne, ← m.signalsRead_lineSteps _ hline_ne',
    hline.signals] at hsignals
  rw [← m.lexLine_eq_lexFrom _ hline_ne, ← m.lexLine_eq_lexFrom _ hline_ne', hline.closed] at hregion
  exact ⟨hsignals.symm, hregion.symm⟩

/-- A blank line has no signals. -/
theorem HasSignals.trimLeading_ne_nil {line : List Char} {xs : List (Option Signal)}
    (h : m.HasSignals line xs) (hxs : xs ≠ []) : trimLeading line ≠ [] := by
  intro hblank
  refine hxs (h.signals.symm.trans ?_)
  by_cases hnil : line = []
  · rw [hnil, lineSteps, m.stepsFrom_of_end _ rfl]
    rfl
  · rw [m.signalsRead_lineSteps _ hnil, m.stepsFrom_of_end _ ((m.rest_contentCursor line).trans hblank)]
    rfl

/-! ## Braces at the start -/

theorem longest_brace {c : Char} (hc : c = '\x7b' ∨ c = '\x7d') (cs : List Char) :
    Shape.longest (c :: cs) = some (.punctuation, 1) := by
  have hclasses : isPunctuation c = true ∧ isQuote c = false ∧ c.isDigit = false ∧ c ≠ '/' ∧
      isOperatorChar c = false ∧ isWordStart c = false := by
    rcases hc with rfl | rfl <;> decide
  obtain ⟨hpunctuation, hquote, hdigit, hslash, hoperator, hword⟩ := hclasses
  have hone : cs.takeWhile (fun _ => false) = [] := by cases cs <;> rfl
  simp [Shape.longest, Shape.longestOf, Shape.all, Shape.matchLength, runLength, operatorLength,
    openerLength, hpunctuation, hquote, hdigit, hslash, hoperator, hword, hone, Ne.symm hslash]

theorem lexeme_brace (h : m.hooks.OnlyDirectives) {c : Cursor} {s : State} {brace : Char}
    (hbrace : brace = '\x7b' ∨ brace = '\x7d') {cs : List Char} (hrest : c.rest = brace :: cs)
    (hregion : s.region = .code) (hstart : s.startOfLine = true) :
    m.lexeme c s =
      if m.hooks.contains brace then ⟨.directive, none, cs.length + 1, .code⟩
      else ⟨.bracket, Signal.ofChar? brace, 1, .code⟩ := by
  simp only [lexeme, hregion, codeLexeme, capture?_eq h, hrest, hstart, List.head?_cons, Option.any_some,
    Bool.and_true, List.length_cons, Nat.add_sub_cancel]
  cases m.hooks.contains brace with
  | true => simp
  | false => simp [shapeLexeme, longest_brace hbrace]

theorem signalsRead_stepsFrom_brace (h : m.hooks.OnlyDirectives) {c : Cursor} {s : State} {brace : Char}
    (hbrace : brace = '\x7b' ∨ brace = '\x7d') {cs : List Char} (hrest : c.rest = brace :: cs)
    (hregion : s.region = .code) (hstart : s.startOfLine = true) :
    (m.hooks.contains brace = true ∧ signalsRead (m.stepsFrom c s) = []) ∨
      (m.hooks.contains brace = false ∧
        (signalsRead (m.stepsFrom c s)).head? = some (Signal.ofChar? brace)) := by
  have hblank : leadingBlanks c.rest = [] := by
    have hno : isBlank brace = false := by rcases hbrace with rfl | rfl <;> decide
    simp [hrest, leadingBlanks, hno]
  have hlexeme := lexeme_brace h (c := c.startToken) (s := s.enter c) hbrace hrest
    ((s.region_enter c).trans hregion) ((State.startOfLine_enter fun _ => hstart).trans hstart)
  rw [m.stepsFrom_of_rest s (by simp [hrest]), m.step_of_not_blank s hblank, signalsRead_cons, hlexeme]
  cases hhook : m.hooks.contains brace with
  | true =>
    -- the directive leaves nothing to read
    left
    rw [if_pos rfl, m.stepsFrom_of_end _ (by simp [hrest])]
    exact ⟨rfl, rfl⟩
  | false =>
    right
    exact ⟨rfl, rfl⟩

/-- A brace at the start of a line is its first signal, or it starts a directive that takes all of the
line. -/
theorem HasSignals.brace (h : m.hooks.OnlyDirectives) {line : List Char} {xs : List (Option Signal)}
    (hline : m.HasSignals line xs) {brace : Char} (hbrace : brace = '\x7b' ∨ brace = '\x7d')
    (hfirst : (trimLeading line).head? = some brace) :
    (m.hooks.contains brace = true ∧ xs = []) ∨
      (m.hooks.contains brace = false ∧ xs.head? = some (Signal.ofChar? brace)) := by
  obtain ⟨cs, hcs⟩ := List.head?_eq_some_iff.1 hfirst
  have hne : line ≠ [] := fun hnil => by rw [hnil] at hcs; cases hcs
  have hxs := hline.signals
  rw [m.signalsRead_lineSteps _ hne] at hxs
  rw [← hxs]
  exact signalsRead_stepsFrom_brace h hbrace ((m.rest_contentCursor line).trans hcs) rfl rfl

/-! ## What a line does to the layout -/

theorem takes_stepsFrom (m : Mode) (c : Cursor) (s : State) (hc : c.atLineStart = false) :
    s.layout.Takes (signalsRead (m.stepsFrom c s)) (m.lexFrom c s).2.layout := by
  induction c, s using m.reading_induction with
  | atEnd c s hrest =>
    rw [m.stepsFrom_of_end s hrest, m.lexFrom_of_end s hrest]
    exact .nil _
  | step c s hrest ih =>
    have hlayout := m.layout_step c s
    rw [events_step, hc] at hlayout
    have hnext := ih (m.atLineStart_step s hrest)
    rw [m.stepsFrom_of_rest s hrest, m.lexFrom_of_rest s hrest, signalsRead_cons]
    cases hsignal : (m.step c s).signal? with
    | none =>
      rw [hsignal] at hlayout
      rw [hlayout] at hnext
      exact hnext
    | some signal =>
      rw [hsignal] at hlayout
      rw [hlayout] at hnext
      exact .cons c.startToken.column hnext

/-- The tokens of a line lead from the layout at its start to the one behind it. -/
theorem takes_lineSteps (m : Mode) {line : List Char} (h : line ≠ []) (s : State) :
    Layout.Takes ⟨s.nesting.settle false, m.indentationOf line⟩ (signalsRead (m.lineSteps line s))
      (m.lexLine line s).2.layout := by
  have hstart : (m.cursor line).atLineStart = true := rfl
  have hlayout := m.layout_step (m.cursor line) s
  rw [events_step, if_pos hstart] at hlayout
  have hrest : (m.cursor line).rest ≠ [] := h
  have hnext := m.takes_stepsFrom _ (m.step (m.cursor line) s).state (m.atLineStart_step s hrest)
  rw [lexLine, lineSteps, m.stepsFrom_of_rest s hrest, m.lexFrom_of_rest s hrest, signalsRead_cons]
  cases hsignal : (m.step (m.cursor line) s).signal? with
  | none =>
    rw [hsignal] at hlayout
    rw [hlayout] at hnext
    exact hnext
  | some signal =>
    rw [hsignal] at hlayout
    rw [hlayout] at hnext
    exact .cons _ hnext

end Mode

end ShaderText
