/-
Indenting anew computes a canonical form. Texts with the same endings are written alike exactly if
their lines agree in what may not change: a line that is written in a comment or a string is the
same in both, and any other is the same behind its leading blanks. A text indented anew is its own
canonical form, whatever its braces and its endings.
-/
import ShaderText.Proofs.Reindent.Lines

namespace ShaderText

namespace Mode

/-! ## Lines with the same content -/

/-- Texts with the same endings that agree, line by line, in what may not change in the state in
which the line is written. -/
structure SameContent (m : Mode) (text text' : List Char) : Prop where
  endings : (textLines text).map TextLine.ending = (textLines text').map TextLine.ending
  lines : ∀ (i : Nat) (line line' : TextLine), (textLines text)[i]? = some line →
    (textLines text')[i]? = some line' →
    fixedPart (m.writingState text i) line.body = fixedPart (m.writingState text i) line'.body

/-- Lines that agree in what may not change are written alike. -/
theorem reindentLines_congr (m : Mode) {lines lines' : List TextLine} {s : State}
    (hendings : lines.map TextLine.ending = lines'.map TextLine.ending)
    (hlines : ∀ (i : Nat) (line line' : TextLine), lines[i]? = some line → lines'[i]? = some line' →
      fixedPart (m.reindentLines (lines.take i) s).2 line.body =
        fixedPart (m.reindentLines (lines.take i) s).2 line'.body) :
    m.reindentLines lines s = m.reindentLines lines' s := by
  -- the first lines are written alike, so the states behind them are the same
  induction lines generalizing lines' s with
  | nil =>
    rw [List.map_nil, eq_comm, List.map_eq_nil_iff] at hendings
    rw [hendings]
  | cons line lines ih =>
    cases lines' with
    | nil => cases hendings
    | cons line' lines' =>
      obtain ⟨hending, hrest⟩ := List.cons.inj hendings
      have hbody : m.reindentLine s line.body = m.reindentLine s line'.body :=
        m.reindentLine_congr (hlines 0 line line' rfl rfl)
      have hnext := ih (s := (m.lexLine (m.reindentLine s line.body) s).2) hrest
        fun i l l' hl hl' => hlines (i + 1) l l' hl hl'
      simp only [reindentLines]
      rw [hnext, hbody, hending]

theorem SameContent.writtenLines_eq {m : Mode} {text text' : List Char}
    (h : m.SameContent text text') : m.writtenLines text = m.writtenLines text' :=
  congrArg Prod.fst (m.reindentLines_congr h.endings h.lines)

/-- Texts are written alike exactly if they have the same content. -/
theorem writtenLines_eq_iff (m : Mode) (text text' : List Char) :
    m.writtenLines text = m.writtenLines text' ↔ m.SameContent text text' := by
  constructor
  · intro h
    refine ⟨?_, fun i line line' hline hline' => ?_⟩
    · have hendings := congrArg (List.map TextLine.ending) h
      rwa [writtenLines, writtenLines, map_ending_reindentLines, map_ending_reindentLines] at hendings
    · have hstate : m.writingState text i = m.writingState text' i := by
        rw [writingState_eq, writingState_eq, h]
      have hi := congrArg (·[i]?) h
      simp only [getElem?_writtenLines, hline, hline', Option.map_some, Option.some.injEq,
        TextLine.mk.injEq] at hi
      rw [← fixedPart_reindentLine m _ line.body, hi.1, ← hstate, fixedPart_reindentLine]
  · exact SameContent.writtenLines_eq

/-! ## A text indented anew -/

/-- The lines of a text indented anew are written as they are. -/
theorem writtenLines_reindent (m : Mode) (text : List Char) :
    m.writtenLines (m.reindent text) = textLines (m.reindent text) := by
  have hwritten : (m.reindentLines (m.writtenLines text) (m.start 0)).1 = m.writtenLines text :=
    congrArg Prod.fst (m.reindentLines_reindentLines (textLines text) (m.start 0))
  rcases m.writtenLines_eq_or text with heq | heq
  · rw [writtenLines, heq, hwritten]
  · -- the line that vanished was written behind all that are kept
    rw [heq, reindentLines_append] at hwritten
    exact (List.append_inj hwritten (m.length_reindentLines _ _)).1

/-- Texts with the same content are indented anew to the same text, and a text indented anew stays
as it is. -/
theorem reindent_canonical (m : Mode) :
    (∀ text text' : List Char, m.SameContent text text' → m.reindent text = m.reindent text') ∧
      ∀ text : List Char, m.reindent (m.reindent text) = m.reindent text := by
  constructor
  · intro text text' h
    exact congrArg joinLines h.writtenLines_eq
  · intro text
    calc m.reindent (m.reindent text)
        = joinLines (m.writtenLines (m.reindent text)) := rfl
      _ = joinLines (textLines (m.reindent text)) := by rw [writtenLines_reindent]
      _ = m.reindent text := joinLines_textLines _

/-- The second line is in a comment, the others lose their own blanks. -/
theorem reindent_canonical_comment :
    let text := [' ', '\x7b', '/', '*', '\n', ' ', 'x', '*', '/', '\r', '\n', 'y']
    let text' := ['\x7b', '/', '*', '\n', ' ', 'x', '*', '/', '\r', '\n', '\t', 'y']
    let out := ['\x7b', '/', '*', '\n', ' ', 'x', '*', '/', '\r', '\n', ' ', ' ', 'y']
    SameContent .bare text text' ∧ Mode.bare.reindent text' = out ∧ Mode.bare.reindent text = out ∧
      Mode.bare.reindent out = out := by
  intro text text' out
  obtain ⟨hcongr, hidem⟩ := reindent_canonical .bare
  have hsame : SameContent .bare text text' := by
    refine ⟨by decide +kernel, fun i line line' hline hline' => ?_⟩
    have hi : i < 3 := (List.getElem?_eq_some_iff.1 hline).1
    match i, hi with
    | 0, _ => cases hline; cases hline'; decide +kernel
    | 1, _ => cases hline; cases hline'; decide +kernel
    | 2, _ => cases hline; cases hline'; decide +kernel
  have hout : Mode.bare.reindent text' = out := by decide +kernel
  exact ⟨hsame, hout, (hcongr text text' hsame).trans hout, hout ▸ hidem text'⟩

end Mode

end ShaderText
