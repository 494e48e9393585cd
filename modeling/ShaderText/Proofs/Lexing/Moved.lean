/-
Text that is moved to the right. In a mode whose hooks are all directives, lines with spaces in front of
them that are as wide as some tabs, laid out at a base column as much further right, have the same tokens
in the same regions; and as long as the columns of the text are small enough, every level and every
proposal is moved by as many columns.
-/
import ShaderText.Proofs.Lexing.Bounds
import ShaderText.Proofs.Lexing.Signals
import ShaderText.Proofs.Lexing.Tiling
import ShaderText.Proofs.Nesting.Moved
import ShaderText.Proofs.Reindent.Lines

namespace ShaderText

/-! ## Lines -/

/-- The line with `k` spaces in front of it; an empty line stays empty. -/
def movedLine (k : Nat) (line : List Char) : List Char :=
  if line = [] then [] else List.replicate k ' ' ++ line

theorem movedLine_eq_nil_iff {k : Nat} {line : List Char} : movedLine k line = [] ↔ line = [] := by
  unfold movedLine
  split <;> simp_all

theorem trimLeading_movedLine (k : Nat) (line : List Char) :
    trimLeading (movedLine k line) = trimLeading line := by
  unfold movedLine
  split
  · rename_i h
    rw [h]
  · refine List.dropWhile_append_of_pos fun c hc => ?_
    rw [List.eq_of_mem_replicate hc]
    decide

namespace Mode

variable {m : Mode} {k : Nat}

theorem indentationOf_movedLine (htab : m.tabSize = 0 ∨ m.tabSize ∣ k) {line : List Char} (h : line ≠ [])
    (hfits : FitsFrom m.tabSize k (leadingBlanks line)) :
    m.indentationOf (movedLine k line) = m.indentationOf line + k := by
  rw [movedLine, if_neg h, indentationOf, leadingBlanks_replicate_append,
    columnWidth_replicate_append htab hfits]
  rfl

theorem before_contentCursor (m : Mode) (line : List Char) :
    (m.contentCursor line).startToken.before = leadingBlanks line := by
  rw [Cursor.before_startToken, token_contentCursor]
  rfl

/-! ## The events of a line -/

/-- The significant token that a step read, where it stands. -/
def Step.tokenEvent? (r : Step) : Option Event :=
  r.signal?.map fun signal => .token signal r.cursor.column

/-- Behind the start of its line the nesting sees nothing but the tokens. -/
theorem flatMap_events_stepsFrom (m : Mode) (c : Cursor) (s : State) (hc : c.atLineStart = false) :
    (m.stepsFrom c s).flatMap Step.events = (m.stepsFrom c s).filterMap Step.tokenEvent? := by
  induction c, s using m.reading_induction with
  | atEnd c s hrest => rw [m.stepsFrom_of_end s hrest, List.flatMap_nil, List.filterMap_nil]
  | step c s hrest ih =>
    obtain ⟨hstart, -, -⟩ := m.lineStart_step c s
    have hevents : (m.step c s).events = (m.step c s).tokenEvent?.toList := by
      rw [Step.events, hstart, hc]
      rfl
    rw [m.stepsFrom_of_rest s hrest, List.flatMap_cons, ih (m.atLineStart_step s hrest), hevents,
      List.filterMap_cons]
    cases (m.step c s).tokenEvent? <;> rfl

/-- The nesting sees the start of a line and the tokens behind its leading blanks. -/
theorem flatMap_events_lineSteps (m : Mode) {line : List Char} (h : line ≠ []) (s : State) :
    (m.lineSteps line s).flatMap Step.events = .line (m.indentationOf line) ::
      (m.stepsFrom (m.contentCursor line) (s.atLineStart (m.indentationOf line))).filterMap
        Step.tokenEvent? := by
  have hstart : (m.cursor line).atLineStart = true := rfl
  have hrest : (m.cursor line).rest ≠ [] := h
  have hevents := m.events_step (m.cursor line) s
  rw [if_pos hstart] at hevents
  rw [lineSteps, m.stepsFrom_of_rest s hrest, List.flatMap_cons,
    m.flatMap_events_stepsFrom _ _ (m.atLineStart_step s hrest), hevents]
  by_cases hblank : leadingBlanks line = []
  · rw [m.contentCursor_of_no_blanks hblank, m.stepsFrom_of_rest _ hrest, m.step_atLineStart s hstart,
      List.filterMap_cons]
    obtain ⟨-, -, hcolumn⟩ := m.lineStart_step (m.cursor line) s
    rw [Step.tokenEvent?, hcolumn]
    cases (m.step (m.cursor line) s).signal? <;> rfl
  · rw [m.step_of_blank (c := m.cursor line) s hblank, s.enter_of_atLineStart hstart]
    rfl

/-! ## Steps that fit -/

/-- Moved by `k` columns, all that the nesting sees of the step stands at columns that are numbers of 64
bits: the indentation of the line that it starts, and the significant token that it reads. -/
def Step.FitsMoved (tabSize k : Nat) (r : Step) : Prop :=
  (r.cursor.behind.isEmpty = true → FitsFrom tabSize k (leadingBlanks r.cursor.line)) ∧
    (r.signal?.isSome = true → FitsFrom tabSize k r.cursor.before)

instance (tabSize k : Nat) (r : Step) : Decidable (r.FitsMoved tabSize k) :=
  inferInstanceAs (Decidable (_ ∧ _))

/-- Where the steps of a line fit, so do its leading blanks and the steps behind them. -/
theorem fits_lineSteps {tabSize : Nat} {line : List Char} (h : line ≠ []) {s : State}
    (hfits : ∀ r ∈ m.lineSteps line s, r.FitsMoved tabSize k) :
    FitsFrom tabSize k (leadingBlanks line) ∧
      ∀ r ∈ m.stepsFrom (m.contentCursor line) (s.atLineStart (m.indentationOf line)),
        r.FitsMoved tabSize k := by
  have hrest : (m.cursor line).rest ≠ [] := h
  rw [m.lineSteps_eq_stepsFrom_cursor s h] at hfits
  constructor
  · rw [m.stepsFrom_of_rest _ hrest] at hfits
    obtain ⟨hblanks, -⟩ := hfits _ (List.mem_cons_self ..)
    obtain ⟨hstart, -, -⟩ := m.lineStart_step (m.cursor line) (s.atLineStart (m.indentationOf line))
    rw [m.line_step] at hblanks
    exact hblanks (hstart.trans rfl)
  · by_cases hblank : leadingBlanks line = []
    · rwa [m.contentCursor_of_no_blanks hblank]
    · rw [m.stepsFrom_of_blank (m.enter_cursor line s) hblank] at hfits
      exact (List.forall_mem_cons.1 hfits).2

/-! ## Two runs over text that is moved -/

theorem before_step {c : Cursor} (ht : c.tabSize = m.tabSize) (s : State) :
    (m.step c s).cursor.before = c.startToken.before ∧ (m.step c s).cursor.tabSize = m.tabSize := by
  obtain ⟨n, hcursor, -⟩ := m.cursor_step c s
  rw [hcursor]
  exact ⟨Cursor.before_take .., ht⟩

/-- Parallel runs, over text in front of which stand spaces in one of them, read the same tokens further
right. -/
theorem Parallel.tokenEvents (h : m.hooks.OnlyDirectives) (htab : m.tabSize = 0 ∨ m.tabSize ∣ k)
    {c c' : Cursor} {s s' : State} (hp : Parallel c c' s s') (ht : c.tabSize = m.tabSize)
    (ht' : c'.tabSize = m.tabSize)
    (hbefore : c'.startToken.before = List.replicate k ' ' ++ c.startToken.before)
    (hfits : ∀ r ∈ m.stepsFrom c s, r.FitsMoved m.tabSize k) :
    (m.stepsFrom c' s').filterMap Step.tokenEvent? =
      ((m.stepsFrom c s).filterMap Step.tokenEvent?).map (Event.moved k) := by
  induction c, s using m.reading_induction generalizing c' s' with
  | atEnd c s hrest =>
    rw [m.stepsFrom_of_end s hrest, m.stepsFrom_of_end s' (hp.rest ▸ hrest)]
    rfl
  | step c s hrest ih =>
    have hrest' : c'.rest ≠ [] := hp.rest ▸ hrest
    obtain ⟨hlexeme, htoken, hnext⟩ := hp.step h hrest
    obtain ⟨hfront, htabSize⟩ := before_step ht s
    obtain ⟨hfront', htabSize'⟩ := before_step ht' s'
    rw [m.stepsFrom_of_rest s hrest] at hfits
    obtain ⟨⟨-, hfirst⟩, hfits⟩ := List.forall_mem_cons.1 hfits
    have hbehind : (m.step c' s').cursor.startToken.before =
        List.replicate k ' ' ++ (m.step c s).cursor.startToken.before := by
      rw [Cursor.before_startToken, Cursor.before_startToken, hfront, hfront', hbefore, ← htoken,
        List.append_assoc]
    have hsignal : (m.step c' s').signal? = (m.step c s).signal? := by
      rw [Step.signal?, Step.signal?, hlexeme]
    have hevent : (m.step c' s').tokenEvent? = (m.step c s).tokenEvent?.map (Event.moved k) := by
      rw [Step.tokenEvent?, Step.tokenEvent?, hsignal]
      cases hs : (m.step c s).signal? with
      | none => rfl
      | some signal =>
        have hcolumn : (m.step c' s').cursor.column = (m.step c s).cursor.column + k := by
          rw [Cursor.column_eq, Cursor.column_eq, htabSize, htabSize', hfront', hbefore, ← hfront]
          exact columnWidth_replicate_append htab (hfirst (by rw [hs]; rfl))
        rw [hcolumn]
        rfl
    rw [m.stepsFrom_of_rest s hrest, m.stepsFrom_of_rest s' hrest', List.filterMap_cons,
      List.filterMap_cons, ih hnext htabSize htabSize' hbehind hfits, hevent]
    cases (m.step c s).tokenEvent? <;> rfl

/-- Of a line that is moved the nesting sees what it sees of the line, moved as far. -/
theorem flatMap_events_lineSteps_moved (h : m.hooks.OnlyDirectives)
    (htab : m.tabSize = 0 ∨ m.tabSize ∣ k) {line : List Char} {s s' : State} (hs : s.region = s'.region)
    (hfits : ∀ r ∈ m.lineSteps line s, r.FitsMoved m.tabSize k) :
    (m.lineSteps (movedLine k line) s').flatMap Step.events =
      ((m.lineSteps line s).flatMap Step.events).map (Event.moved k) := by
  by_cases hnil : line = []
  · rw [movedLine_eq_nil_iff.2 hnil, hnil, lineSteps, lineSteps, m.stepsFrom_of_end s rfl,
      m.stepsFrom_of_end s' rfl]
    rfl
  · have hmoved : movedLine k line ≠ [] := fun h => hnil (movedLine_eq_nil_iff.1 h)
    have hrest : (m.contentCursor line).rest = (m.contentCursor (movedLine k line)).rest := by
      rw [rest_contentCursor, rest_contentCursor, trimLeading_movedLine]
    have hp : Parallel (m.contentCursor line) (m.contentCursor (movedLine k line))
        (s.atLineStart (m.indentationOf line)) (s'.atLineStart (m.indentationOf (movedLine k line))) :=
      ⟨hrest, hs, rfl, fun _ => rfl, fun _ => rfl⟩
    have hbefore : (m.contentCursor (movedLine k line)).startToken.before =
        List.replicate k ' ' ++ (m.contentCursor line).startToken.before := by
      rw [before_contentCursor, before_contentCursor, movedLine, if_neg hnil, leadingBlanks_replicate_append]
    obtain ⟨hblanks, hcontent⟩ := fits_lineSteps hnil hfits
    rw [m.flatMap_events_lineSteps hmoved, m.flatMap_events_lineSteps hnil, List.map_cons,
      hp.tokenEvents h htab rfl rfl hbefore hcontent, indentationOf_movedLine htab hnil hblanks]
    rfl

theorem flatMap_events_linesSteps_moved (h : m.hooks.OnlyDirectives)
    (htab : m.tabSize = 0 ∨ m.tabSize ∣ k) {lines : List (List Char)} {s s' : State} (hs : s.Alike s')
    (hfits : ∀ r ∈ m.linesSteps lines s, r.FitsMoved m.tabSize k) :
    (m.linesSteps (lines.map (movedLine k)) s').flatMap Step.events =
      ((m.linesSteps lines s).flatMap Step.events).map (Event.moved k) := by
  induction lines generalizing s s' with
  | nil => rfl
  | cons line lines ih =>
    obtain ⟨-, hnext⟩ := lexLine_alike h (trimLeading_movedLine k line).symm hs
    obtain ⟨hline, hlines⟩ := List.forall_mem_append.1 hfits
    rw [List.map_cons, linesSteps, linesSteps, List.flatMap_append, List.flatMap_append, List.map_append,
      ih hnext hlines, flatMap_events_lineSteps_moved h htab hs.region hline]

/-- First of all a line starts. -/
theorem signal?_head?_events (m : Mode) (lines : List (List Char)) (s : State) :
    ∀ e ∈ ((m.linesSteps lines s).flatMap Step.events).head?, e.signal? = none := by
  induction lines generalizing s with
  | nil => exact fun e he => by cases he
  | cons line lines ih =>
    rw [linesSteps, List.flatMap_append]
    by_cases hnil : line = []
    · rw [hnil, lineSteps, m.stepsFrom_of_end s rfl]
      exact ih _
    · rw [m.flatMap_events_lineSteps hnil]
      intro e he
      cases he
      rfl

/-! ## Levels and proposals -/

theorem alike_start (m : Mode) (base base' : Nat) : (m.start base).Alike (m.start base') := by
  have hregion (base : Nat) : (m.start base).region = .code := rfl
  have hkinds (base : Nat) : (m.start base).nesting.kinds = [.top] := rfl
  exact ⟨(hregion base).trans (hregion base').symm, (hkinds base).trans (hkinds base').symm⟩

/-- The levels behind lines that are moved are those behind the lines, moved as far. -/
theorem nesting_stateAfter_moved {base limit : Nat} (h : m.hooks.OnlyDirectives)
    (htab : m.tabSize = 0 ∨ m.tabSize ∣ k) (hunit : 2 * m.indentUnit < UInt64.size)
    (hlimit : 2 * (limit + k) ≤ UInt64.size) (hbase : base < limit) {lines : List (List Char)}
    (hfits : ∀ r ∈ m.linesSteps lines (m.start base), r.FitsMoved m.tabSize k)
    (hevents : ∀ e ∈ (m.linesSteps lines (m.start base)).flatMap Step.events, e.Below limit) :
    (m.stateAfter (lines.map (movedLine k)) (m.start (base + k))).nesting =
      (m.stateAfter lines (m.start base)).nesting.moved k := by
  have hstart : (m.start (base + k)).nesting = (m.start base).nesting.moved k := by
    have hroot : ((base + k : Nat) : Int) - m.indentUnit = (base : Int) - m.indentUnit + k := by omega
    rw [nesting_start (by omega) hunit, nesting_start (by omega) hunit, hroot]
    rfl
  have hwithin : (m.start base).layout.Within _ limit := within_start (by omega) hbase hunit
  have hline := m.signal?_head?_events lines (m.start base)
  have hlayout := m.layout_stateAfter lines (m.start base)
  have hlayout' := m.layout_stateAfter (lines.map (movedLine k)) (m.start (base + k))
  rw [flatMap_events_linesSteps_moved h htab (m.alike_start base _) hfits] at hlayout'
  generalize (m.linesSteps lines (m.start base)).flatMap Step.events = es at hevents hline hlayout hlayout'
  have hfirst : ∀ e ∈ (es.map (Event.moved k)).head?, e.signal? = none := by
    rw [List.head?_map]
    intro e he
    obtain ⟨e', he', rfl⟩ := Option.map_eq_some_iff.1 he
    rw [Event.signal?_moved]
    exact hline e' he'
  calc (m.stateAfter (lines.map (movedLine k)) (m.start (base + k))).nesting
      = (Layout.afterAll ⟨(m.start (base + k)).nesting, 0⟩ (es.map (Event.moved k))).nesting :=
        congrArg Layout.nesting hlayout'
    _ = (Layout.afterAll ⟨(m.start base).nesting.moved k, 0 + k⟩ (es.map (Event.moved k))).nesting := by
        -- the first line makes good for the indentation that the start does not move
        rw [hstart]
        exact Layout.nesting_afterAll_congr hfirst _ 0 (0 + k)
    _ = ((m.start base).layout.afterAll es).nesting.moved k :=
        congrArg Layout.nesting (Layout.afterAll_moved hlimit rfl hwithin hevents)
    _ = (m.stateAfter lines (m.start base)).nesting.moved k :=
        congrArg (fun l : Layout => l.nesting.moved k) hlayout.symm

/-- In a mode whose hooks are all directives, let `k` be a multiple of the tab size, or any number where
tabs are characters like all others. Moved by `k`, let the count of no column of the text go beyond 64 bits,
and let no column come to be too large for a signed number. With `k` spaces in front of all lines that are
not empty and a base column `k` columns further right, the lines have tokens of the same categories and texts;
and behind each of them the region is the same, all levels stand `k` columns further right, and what is
proposed for any line does too, except in a literal. -/
theorem lexLines_moved {base limit : Nat} (h : m.hooks.OnlyDirectives)
    (htab : m.tabSize = 0 ∨ m.tabSize ∣ k) (hunit : 2 * m.indentUnit < UInt64.size)
    (hlimit : 2 * (limit + k) ≤ UInt64.size) (hbase : base < limit) (lines : List (List Char))
    (hfits : ∀ r ∈ m.linesSteps lines (m.start base), r.FitsMoved m.tabSize k)
    (hevents : ∀ e ∈ (m.linesSteps lines (m.start base)).flatMap Step.events, e.Below limit) :
    (m.lexLines (lines.map (movedLine k)) (m.start (base + k))).1.map (·.map Token.plain) =
      (m.lexLines lines (m.start base)).1.map (·.map Token.plain) ∧
    ∀ i, let s := m.stateAfter (lines.take i) (m.start base)
      let s' := m.stateAfter ((lines.map (movedLine k)).take i) (m.start (base + k))
      s'.region = s.region ∧ s'.nesting = s.nesting.moved k ∧
        (s.inLiteral = true → ∀ text, m.indent s text = 0 ∧ m.indent s' text = 0) ∧
        (s.inLiteral = false → ∀ text, m.indent s' text = m.indent s text + k) := by
  have htrim (lines : List (List Char)) :
      (lines.map (movedLine k)).map trimLeading = lines.map trimLeading := by
    rw [List.map_map]
    exact List.map_congr_left fun line _ => trimLeading_movedLine k line
  have hstart := m.alike_start (base + k) base
  obtain ⟨hrows, -⟩ := lexLines_alike h (htrim lines) hstart
  refine ⟨hrows, fun i => ?_⟩
  have hsteps := m.linesSteps_append (lines.take i) (lines.drop i) (m.start base)
  rw [List.take_append_drop] at hsteps
  rw [hsteps] at hfits hevents
  rw [List.flatMap_append] at hevents
  obtain ⟨hfits, -⟩ := List.forall_mem_append.1 hfits
  obtain ⟨hfront, -⟩ := List.forall_mem_append.1 hevents
  intro s s'
  obtain ⟨-, halike⟩ := lexLines_alike h (htrim (lines.take i)) hstart
  rw [List.map_take] at halike
  have hnesting : s'.nesting = s.nesting.moved k := by
    have hmoved := nesting_stateAfter_moved h htab hunit hlimit hbase hfits hfront
    rwa [List.map_take] at hmoved
  refine ⟨halike.region, hnesting, fun hliteral text => ?_, fun hcode text => ?_⟩
  · rw [indent, indent, halike.inLiteral_eq, hliteral]
    exact ⟨rfl, rfl⟩
  · have hn : s.nesting.Within _ _ := (reachedBelow_stateAfter hfront).nesting (by omega) hbase hunit
    have hcolumn : ∀ l ∈ s.nesting.inner, 2 * (l.column + k) < UInt64.size := by
      intro l hl
      have := (hn.inner l hl).column
      omega
    obtain ⟨hnonneg, -⟩ := hn.proposal (by omega) hbase hunit (trimLeading text).head?
    have hproposal := Nesting.proposal_moved (by rw [hn.root]) hcolumn (trimLeading text).head? m.indentUnit
    have hcode' : s'.inLiteral = false := halike.inLiteral_eq.trans hcode
    rw [indent, indent, hcode, hcode', hnesting]
    simp only [Bool.false_eq_true, if_false, Nesting.indentation, hproposal]
    omega

/-- A tab in front of a call that goes on in the next line, and a comment that is not closed. -/
theorem lexLines_moved_call :
    let m : Mode := { shader with grammar := .empty }
    let lines := [['\t', 'f', '(', 'x'], [], ['/', '*']]
    let lines' := lines.map (movedLine 4)
    m.hooks.OnlyDirectives ∧ (m.tabSize = 0 ∨ m.tabSize ∣ 4) ∧ 2 * m.indentUnit < UInt64.size ∧
      2 * (100 + 4) ≤ UInt64.size ∧ 1 < 100 ∧
      (∀ r ∈ m.linesSteps lines (m.start 1), r.FitsMoved m.tabSize 4) ∧
      (∀ e ∈ (m.linesSteps lines (m.start 1)).flatMap Step.events, e.Below 100) ∧
      (m.lexLines lines' (m.start 5)).1.map (·.map Token.plain) =
        (m.lexLines lines (m.start 1)).1.map (·.map Token.plain) ∧
      (m.stateAfter (lines'.take 3) (m.start 5)).region = .comment ∧
      ∀ text, m.indent (m.stateAfter (lines'.take 2) (m.start 5)) text =
        m.indent (m.stateAfter (lines.take 2) (m.start 1)) text + 4 := by
  intro m lines lines'
  have hhooks : m.hooks.OnlyDirectives := HookTable.onlyDirectives_shader
  have htab : m.tabSize = 0 ∨ m.tabSize ∣ 4 := .inr (by decide)
  have hevents : ∀ e ∈ (m.linesSteps lines (m.start 1)).flatMap Step.events, e.Below 100 := by
    decide +kernel
  have hfits : ∀ r ∈ m.linesSteps lines (m.start 1), r.FitsMoved m.tabSize 4 := by decide +kernel
  obtain ⟨hrows, hstates⟩ :=
    lexLines_moved hhooks htab (by decide) (by decide) (by decide) lines hfits hevents
  obtain ⟨hregion, -⟩ := hstates 3
  obtain ⟨-, -, -, hindent⟩ := hstates 2
  refine ⟨hhooks, htab, by decide, by decide, by decide, hfits, hevents, hrows, ?_, ?_⟩
  · rw [hregion]
    decide +kernel
  · exact hindent (by decide +kernel)

end Mode

end ShaderText
