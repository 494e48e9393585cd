/-
Groups of brackets in a text. A group goes from the step that reads its opener to the one that reads
its closer, over any number of lines; comments, strings and directives may stand in it, and the
brackets among its significant tokens are nested correctly. Behind its closer the nesting and the
line's indentation are those in which the opener was read, but for the alignment that the opener
decides and for the statements that a brace ends. A text of groups that ends in a closing brace leaves
the root alone.
-/
import ShaderText.Proofs.Lexing.Layout
import ShaderText.Proofs.Nesting.Groups

namespace ShaderText

namespace Mode

/-- The step at `c` opens a bracket, the steps `rs` lead from behind it to `c'` with their brackets
nested correctly, and the step there closes the bracket. -/
structure Group (m : Mode) (b : Bracket) (c : Cursor) (s : State) (rs : List Step) (c' : Cursor)
    (s' : State) : Prop where
  opener : (m.step c s).signal? = some (some (.opening b))
  inside : m.Reads (m.step c s).cursor (m.step c s).state rs c' s'
  balanced : Balanced (signalsRead rs)
  closer : (m.step c' s').signal? = some (some (.closing b))

/-- The layout behind a group, from the state in which its opener was read. -/
theorem layout_behind_group {m : Mode} {b : Bracket} {c c' : Cursor} {s s' : State} {rs : List Step}
    (h : m.Group b c s rs c' s') :
    (m.step c' s').state.layout =
      ⟨if b = .brace then ((s.enter c).nesting.settle true).dropStatements
        else (s.enter c).nesting.settle true, (signed (s.enter c).indented).toNat⟩ := by
  -- the closer may stand at the start of a line, and that start is inside the group
  let inside := rs.flatMap Step.events ++ if c'.atLineStart then [.line c'.indentation] else []
  have hinside : Balanced (signalsOf inside) := by
    have hstart : signalsOf (if c'.atLineStart then [.line c'.indentation] else []) = [] := by
      split <;> rfl
    rw [signalsOf_append, signalsOf_flatMap_events, hstart, List.append_nil]
    exact h.balanced
  calc (m.step c' s').state.layout
      = (s'.enter c').layout.after (.token (some (.closing b)) c'.startToken.column) :=
        m.layout_step_of_signal c' s' h.closer
    _ = ((m.step c s).state.layout.afterAll inside).after
          (.token (some (.closing b)) c'.startToken.column) := by
        rw [layout_enter, h.inside.layout, Layout.afterAll_append]
    _ = (s.enter c).layout.afterAll (.token (some (.opening b)) c.startToken.column :: inside ++
          [.token (some (.closing b)) c'.startToken.column]) := by
        rw [m.layout_step_of_signal c s h.opener]
        simp
    _ = _ := Layout.afterAll_group _ _ _ hinside

/-- What is nested correctly and ends in a closing brace leaves the root that it started from. -/
theorem nesting_stateAfter_of_balanced (m : Mode) (base : Nat) (lines : List (List Char))
    (hbalanced : Balanced (signalsRead (m.linesSteps lines (m.start base))))
    (hlast : (signalsRead (m.linesSteps lines (m.start base))).getLast? =
      some (some (.closing .brace))) :
    (m.stateAfter lines (m.start base)).nesting = (m.start base).nesting := by
  rw [← signalsOf_flatMap_events] at hbalanced hlast
  have hroot : (m.start base).nesting.top.kind ≠ .statement := by
    simp [start, State.start, Nesting.ofRoot, Nesting.top]
  have hover : (m.start base).nesting.Over (m.start base).layout.nesting := .base
  have hafter := Layout.nesting_afterAll_of_closing_brace hroot hover hbalanced hlast
  rw [← layout_stateAfter] at hafter
  -- the alignment of the root is decided from the start
  rcases hafter with heq | ⟨aligned, heq⟩
  · exact heq
  · exact heq

/-- Behind a group of brackets the nesting is the one in which its opener was read, with an unknown
alignment of the innermost level decided by the opener and, if the group is in braces, without the
statements that are innermost; and the line is indented as it was at the opener if that is less than
2^63. A text whose brackets are nested correctly and that ends in a closing brace leaves the root. -/
theorem nesting_behind_groups (m : Mode) :
    (∀ (b : Bracket) (c c' : Cursor) (s s' : State) (rs : List Step), m.Group b c s rs c' s' →
      (m.step c' s').state.nesting =
          (if b = .brace then ((s.enter c).nesting.settle true).dropStatements
            else (s.enter c).nesting.settle true) ∧
        (2 * (s.enter c).indented < UInt64.size →
          (m.step c' s').state.indented = (s.enter c).indented)) ∧
    ∀ (base : Nat) (lines : List (List Char)),
      Balanced (signalsRead (m.linesSteps lines (m.start base))) →
      (signalsRead (m.linesSteps lines (m.start base))).getLast? = some (some (.closing .brace)) →
      (m.stateAfter lines (m.start base)).nesting = (m.start base).nesting := by
  refine ⟨fun b c c' s s' rs h => ?_, m.nesting_stateAfter_of_balanced⟩
  have hlayout := layout_behind_group h
  refine ⟨congrArg Layout.nesting hlayout, fun hlt => ?_⟩
  rw [show (m.step c' s').state.indented = _ from congrArg Layout.indented hlayout]
  rw [signed_of_lt hlt, Int.toNat_natCast]

/-- The braces in `x{()}` end the statement that they stand on. -/
theorem nesting_behind_groups_braces :
    let line := ['x', '\x7b', '(', ')', '\x7d']
    let word := bare.step (bare.cursor line) (bare.start 0)
    let opener := bare.step word.cursor word.state
    let paren := bare.step opener.cursor opener.state
    let paren' := bare.step paren.cursor paren.state
    bare.Group .brace word.cursor word.state [paren, paren'] paren'.cursor paren'.state ∧
      (bare.step paren'.cursor paren'.state).state.nesting =
        ((word.state.enter word.cursor).nesting.settle true).dropStatements ∧
      (bare.step paren'.cursor paren'.state).state.indented = (word.state.enter word.cursor).indented ∧
      (bare.stateAfter [line] (bare.start 0)).nesting = (bare.start 0).nesting := by
  intro line word opener paren paren'
  have hinside : signalsRead [paren, paren'] = [some (.opening .paren), some (.closing .paren)] := by
    decide +kernel
  have hreads : bare.Reads opener.cursor opener.state [paren, paren'] paren'.cursor paren'.state :=
    .step (by decide +kernel) (.step (by decide +kernel) (.stop _ _))
  have hgroup : bare.Group .brace word.cursor word.state [paren, paren'] paren'.cursor paren'.state := by
    refine ⟨by decide +kernel, hreads, ?_, by decide +kernel⟩
    rw [hinside]
    exact .group .nil .nil
  have hsignals : signalsRead (bare.linesSteps [line] (bare.start 0)) =
      [none, some (.opening .brace), some (.opening .paren), some (.closing .paren),
        some (.closing .brace)] := by decide +kernel
  have hbalanced : Balanced (signalsRead (bare.linesSteps [line] (bare.start 0))) := by
    rw [hsignals]
    exact .other (fun b => ⟨nofun, nofun⟩) (.group (.group .nil .nil) .nil)
  have hindented : 2 * (word.state.enter word.cursor).indented < UInt64.size := by decide +kernel
  obtain ⟨hgroups, htexts⟩ := nesting_behind_groups bare
  obtain ⟨hnesting, hrestored⟩ := hgroups .brace _ _ _ _ _ hgroup
  exact ⟨hgroup, hnesting, hrestored hindented, htexts 0 [line] hbalanced (by rw [hsignals]; rfl)⟩

/-- An opener that is 2^63 columns in leaves a line indented by 0 behind its closer; and where an opener
starts a line, that start decides the alignment of the level around it, not the opener. -/
theorem behind_group_far_out_and_at_line_start :
    (let m : Mode := { bare with tabSize := 9223372036854775808 }
      let blanks := m.step (m.cursor ['\t', '(', ')']) (m.start 0)
      let opener := m.step blanks.cursor blanks.state
      let closer := m.step opener.cursor opener.state
      m.Group .paren blanks.cursor blanks.state [] opener.cursor opener.state ∧
        blanks.state.indented = 9223372036854775808 ∧ closer.state.indented = 0) ∧
    (let outer := bare.step (bare.cursor ['(']) (bare.start 0)
      let opener := bare.step (bare.cursor ['(', ')']) outer.state
      let closer := bare.step opener.cursor opener.state
      bare.Group .paren (bare.cursor ['(', ')']) outer.state [] opener.cursor opener.state ∧
        closer.state.nesting = outer.state.nesting.settle false ∧
        closer.state.nesting ≠ outer.state.nesting.settle true) := by
  refine ⟨⟨⟨?_, .stop _ _, .nil, ?_⟩, ?_, ?_⟩, ⟨?_, .stop _ _, .nil, ?_⟩, ?_, ?_⟩
  all_goals decide +kernel

end Mode

end ShaderText
