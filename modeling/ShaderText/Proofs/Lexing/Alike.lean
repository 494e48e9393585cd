/-
Lexing sees a state only up to its layout. States are alike if they agree in their region and in
the kinds of their levels, whatever columns and alignments those have. In a mode whose hooks are
all directives, lines that agree behind their leading blanks, read from states that are alike, have
tokens of the same categories and texts, and leave states that are alike.
-/
import ShaderText.Proofs.Lexing.Step
import ShaderText.Proofs.Nesting.Related

namespace ShaderText

/-! ## Directives -/

/-- With directives as the only hooks, a trigger captures the rest of its line where nothing
significant stands before it. -/
theorem Mode.capture?_eq {m : Mode} (h : m.hooks.OnlyDirectives) (c : Cursor) (s : State) :
    m.capture? c s =
      if c.rest.head?.any (m.hooks.contains ·) && s.startOfLine then
        some ⟨.directive, c.rest.length - 1⟩
      else none := by
  unfold capture? Cursor.peek
  cases hrest : c.rest with
  | nil => rfl
  | cons trigger rest =>
    cases hhook : m.hooks[trigger]? with
    | none =>
      have hno : m.hooks.contains trigger = false := by
        rw [Std.TreeMap.contains_eq_isSome_getElem?, hhook]
        rfl
      simp [hhook, hno]
    | some hook =>
      have hdirective := h trigger hook hhook
      subst hdirective
      have hyes : m.hooks.contains trigger = true := by
        rw [Std.TreeMap.contains_eq_isSome_getElem?, hhook]
        rfl
      simp [hhook, hyes, Hook.directive, hrest]

/-! ## States that are alike -/

/-- States that agree in the region and in the kinds of their levels. -/
structure State.Alike (s s' : State) : Prop where
  region : s.region = s'.region
  kinds : s.nesting.kinds = s'.nesting.kinds

namespace State.Alike

variable {s s' : State}

theorem refl (s : State) : s.Alike s := ⟨rfl, rfl⟩

theorem symm (h : s.Alike s') : s'.Alike s := ⟨h.region.symm, h.kinds.symm⟩

theorem trans {s'' : State} (h : s.Alike s') (h' : s'.Alike s'') : s.Alike s'' :=
  ⟨h.region.trans h'.region, h.kinds.trans h'.kinds⟩

theorem inLiteral_eq (h : s.Alike s') : s.inLiteral = s'.inLiteral := by
  rw [inLiteral, inLiteral, h.region]

@[simp] theorem kinds_atLineStart (s : State) (i : Nat) :
    (s.atLineStart i).nesting.kinds = s.nesting.kinds :=
  s.nesting.kinds_settle false

theorem atLineStart (h : s.Alike s') (i i' : Nat) : (s.atLineStart i).Alike (s'.atLineStart i') :=
  ⟨h.region, by rw [kinds_atLineStart, kinds_atLineStart, h.kinds]⟩

theorem kinds_enter (s : State) (c : Cursor) : (s.enter c).nesting.kinds = s.nesting.kinds := by
  unfold State.enter
  split
  · exact kinds_atLineStart s _
  · rfl

theorem enter (h : s.Alike s') (c c' : Cursor) : (s.enter c).Alike (s'.enter c') := by
  refine ⟨?_, ?_⟩
  · rw [region_enter, region_enter, h.region]
  · rw [kinds_enter, kinds_enter, h.kinds]

theorem afterLexeme (h : s.Alike s') (x : Lexeme) (column column' : Nat) :
    (s.afterLexeme x column).Alike (s'.afterLexeme x column') := by
  unfold State.afterLexeme
  split
  · exact ⟨rfl, h.kinds⟩
  · refine ⟨rfl, Nesting.kinds_update ?_ x.signal column column' s.indented s'.indented⟩
    rw [Nesting.kinds_settle, Nesting.kinds_settle, h.kinds]

end State.Alike

/-! ## Two runs over the same text -/

/-- A token without its place. -/
def Token.plain (t : Token) : Category × List Char := (t.category, t.text)

namespace Mode

variable {m : Mode}

theorem lexeme_congr (h : m.hooks.OnlyDirectives) {c c' : Cursor} {s s' : State}
    (hrest : c.rest = c'.rest) (hregion : s.region = s'.region)
    (hstart : s.startOfLine = s'.startOfLine) : m.lexeme c s = m.lexeme c' s' := by
  unfold lexeme codeLexeme
  rw [capture?_eq h, capture?_eq h, hrest, hregion, hstart]

/-- Two runs with the same text in front of them, in the same region, that agree on whether a
significant token was met on the line. -/
structure Parallel (c c' : Cursor) (s s' : State) : Prop where
  rest : c.rest = c'.rest
  region : s.region = s'.region
  startOfLine : s.startOfLine = s'.startOfLine
  entered : c.atLineStart = true → s.startOfLine = true
  entered' : c'.atLineStart = true → s'.startOfLine = true

/-- One step keeps two runs parallel, and both read the same. -/
theorem Parallel.step (h : m.hooks.OnlyDirectives) {c c' : Cursor} {s s' : State}
    (hp : Parallel c c' s s') (hrest : c.rest ≠ []) :
    (m.step c s).lexeme? = (m.step c' s').lexeme? ∧
      (m.step c s).cursor.token = (m.step c' s').cursor.token ∧
      Parallel (m.step c s).cursor (m.step c' s').cursor (m.step c s).state (m.step c' s').state := by
  have hmoved := m.atLineStart_step s hrest
  have hmoved' := m.atLineStart_step s' (hp.rest ▸ hrest)
  have hregion : (s.enter c).region = (s'.enter c').region := by
    rw [State.region_enter, State.region_enter, hp.region]
  have hstart : (s.enter c).startOfLine = (s'.enter c').startOfLine := by
    rw [State.startOfLine_enter hp.entered, State.startOfLine_enter hp.entered', hp.startOfLine]
  by_cases hblank : leadingBlanks c.rest = []
  · have hlexeme : m.lexeme c.startToken (s.enter c) = m.lexeme c'.startToken (s'.enter c') :=
      lexeme_congr h hp.rest hregion hstart
    rw [m.step_of_not_blank s hblank] at hmoved ⊢
    rw [m.step_of_not_blank s' (hp.rest ▸ hblank)] at hmoved' ⊢
    rw [← hlexeme] at hmoved' ⊢
    -- behind the step no cursor is at the start of its line, so the flags need not be set there
    refine ⟨rfl, ?_, ?_, ?_, ?_, fun hat => ?_, fun hat => ?_⟩
    · simp [hp.rest]
    · simp [hp.rest]
    · rw [State.region_afterLexeme, State.region_afterLexeme]
    · rw [State.startOfLine_afterLexeme, State.startOfLine_afterLexeme, hstart]
    · rw [hmoved] at hat; cases hat
    · rw [hmoved'] at hat; cases hat
  · rw [m.step_of_blank s hblank] at hmoved ⊢
    rw [m.step_of_blank s' (hp.rest ▸ hblank)] at hmoved' ⊢
    refine ⟨rfl, ?_, ?_, hregion, hstart, fun hat => ?_, fun hat => ?_⟩
    · simp [hp.rest]
    · simp [hp.rest]
    · rw [hmoved] at hat; cases hat
    · rw [hmoved'] at hat; cases hat

/-- Two runs with the same text in front of them, in states that are alike and agree on whether a
significant token was met on the line. -/
structure Abreast (c c' : Cursor) (s s' : State) : Prop where
  rest : c.rest = c'.rest
  alike : s.Alike s'
  startOfLine : s.startOfLine = s'.startOfLine
  entered : c.atLineStart = true → s.startOfLine = true
  entered' : c'.atLineStart = true → s'.startOfLine = true

/-- One step keeps two runs abreast, and both read the same. -/
theorem Abreast.step (h : m.hooks.OnlyDirectives) {c c' : Cursor} {s s' : State}
    (ha : Abreast c c' s s') (hrest : c.rest ≠ []) :
    (m.step c s).token?.map Token.plain = (m.step c' s').token?.map Token.plain ∧
      Abreast (m.step c s).cursor (m.step c' s').cursor (m.step c s).state (m.step c' s').state := by
  have hp : Parallel c c' s s' :=
    ⟨ha.rest, ha.alike.region, ha.startOfLine, ha.entered, ha.entered'⟩
  obtain ⟨hlexeme, htoken, hnext⟩ := hp.step h hrest
  have halike : (m.step c s).state.Alike (m.step c' s').state := by
    have hentered := ha.alike.enter c c'
    by_cases hblank : leadingBlanks c.rest = []
    · rw [m.step_of_not_blank s hblank, m.step_of_not_blank s' (ha.rest ▸ hblank)] at hlexeme ⊢
      rw [← Option.some.inj hlexeme]
      exact hentered.afterLexeme _ _ _
    · rw [m.step_of_blank s hblank, m.step_of_blank s' (ha.rest ▸ hblank)]
      exact hentered
  refine ⟨?_, hnext.rest, halike, hnext.startOfLine, hnext.entered, hnext.entered'⟩
  rw [Step.token?, Step.token?, ← hlexeme, Option.map_map, Option.map_map]
  exact congrArg (Option.map · _) (funext fun x => Prod.ext rfl htoken)

/-- Two runs abreast read tokens of the same categories and texts to the ends of their lines. -/
theorem Abreast.lexFrom (h : m.hooks.OnlyDirectives) {c c' : Cursor} {s s' : State}
    (ha : Abreast c c' s s') :
    (m.lexFrom c s).1.map Token.plain = (m.lexFrom c' s').1.map Token.plain ∧
      (m.lexFrom c s).2.Alike (m.lexFrom c' s').2 := by
  -- by the length of the text in front of both
  generalize hlen : c.rest.length = len
  induction len using Nat.strongRecOn generalizing c c' s s' with
  | ind len ih =>
    by_cases hrest : c.rest = []
    · rw [m.lexFrom_of_end s hrest, m.lexFrom_of_end s' (ha.rest ▸ hrest)]
      exact ⟨rfl, ha.alike⟩
    · obtain ⟨htoken, hnext⟩ := ha.step h hrest
      have hlt := m.length_rest_step_lt s hrest
      obtain ⟨htokens, hfinal⟩ := ih _ (hlen ▸ hlt) hnext rfl
      rw [m.lexFrom_of_rest s hrest, m.lexFrom_of_rest s' (ha.rest ▸ hrest)]
      refine ⟨?_, hfinal⟩
      rw [List.map_append, List.map_append, htokens, ← Option.toList_map, ← Option.toList_map, htoken]

/-! ## Lines and texts -/

/-- A line of blanks has no tokens, and it leaves a state like the one it is read from. -/
theorem lexLine_of_blank (m : Mode) {line : List Char} (h : trimLeading line = []) (s : State) :
    (m.lexLine line s).1 = [] ∧ (m.lexLine line s).2.Alike s := by
  by_cases hnil : line = []
  · rw [hnil, lexLine_nil]
    exact ⟨rfl, .refl s⟩
  · rw [m.lexLine_eq_lexFrom s hnil, m.lexFrom_of_end _ ((m.rest_contentCursor line).trans h)]
    exact ⟨rfl, rfl, State.Alike.kinds_atLineStart s _⟩

/-- Lines that agree behind their leading blanks read alike. -/
theorem lexLine_alike (h : m.hooks.OnlyDirectives) {line line' : List Char} {s s' : State}
    (htrim : trimLeading line = trimLeading line') (ha : s.Alike s') :
    (m.lexLine line s).1.map Token.plain = (m.lexLine line' s').1.map Token.plain ∧
      (m.lexLine line s).2.Alike (m.lexLine line' s').2 := by
  by_cases hblank : trimLeading line = []
  · obtain ⟨htokens, hfinal⟩ := m.lexLine_of_blank hblank s
    obtain ⟨htokens', hfinal'⟩ := m.lexLine_of_blank (htrim ▸ hblank) s'
    rw [htokens, htokens']
    exact ⟨rfl, hfinal.trans (ha.trans hfinal'.symm)⟩
  · have hline : line ≠ [] := fun hnil => hblank (by rw [hnil]; rfl)
    have hline' : line' ≠ [] := fun hnil => hblank (by rw [htrim, hnil]; rfl)
    rw [m.lexLine_eq_lexFrom s hline, m.lexLine_eq_lexFrom s' hline']
    refine Abreast.lexFrom h ⟨?_, ha.atLineStart _ _, rfl, fun _ => rfl, fun _ => rfl⟩
    rw [rest_contentCursor, rest_contentCursor, htrim]

/-- Lines that agree, each behind its leading blanks, read alike one after the other. -/
theorem lexLines_alike (h : m.hooks.OnlyDirectives) {lines lines' : List (List Char)} {s s' : State}
    (htrim : lines.map trimLeading = lines'.map trimLeading) (ha : s.Alike s') :
    (m.lexLines lines s).1.map (·.map Token.plain) =
        (m.lexLines lines' s').1.map (·.map Token.plain) ∧
      (m.stateAfter lines s).Alike (m.stateAfter lines' s') := by
  induction lines generalizing lines' s s' with
  | nil =>
    rw [List.map_nil, eq_comm, List.map_eq_nil_iff] at htrim
    subst htrim
    exact ⟨rfl, ha⟩
  | cons line lines ih =>
    cases lines' with
    | nil => cases htrim
    | cons line' lines' =>
      obtain ⟨hline, hlines⟩ := List.cons.inj htrim
      obtain ⟨hrow, hnext⟩ := lexLine_alike h hline ha
      obtain ⟨hrows, hfinal⟩ := ih hlines hnext
      refine ⟨?_, hfinal⟩
      simp only [lexLines, List.map_cons, hrow, hrows]

end Mode

end ShaderText
