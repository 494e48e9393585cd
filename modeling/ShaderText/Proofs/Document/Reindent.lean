/-
Indenting a document anew, line by line. Each line is replaced by itself with the indentation that
the document proposes for it at that moment, so the states kept for the lines below are read again
after every replacement. The document ends with the lines, and in the state, that indenting the
whole text anew in one pass gives, and it then proposes for every line the indentation the line has.
-/
import ShaderText.Proofs.Document.Edit
import ShaderText.Proofs.Reindent.Lines

namespace ShaderText

/-- Lines with the endings of other lines. -/
def withEndings (bodies : List (List Char)) (lines : List TextLine) : List TextLine :=
  List.zipWith (fun body line => { line with body }) bodies lines

theorem withEndings_map_body {lines lines' : List TextLine}
    (h : lines.map TextLine.ending = lines'.map TextLine.ending) :
    withEndings (lines.map TextLine.body) lines' = lines := by
  induction lines generalizing lines' with
  | nil => rfl
  | cons line lines ih =>
    cases lines' with
    | nil => cases h
    | cons line' lines' =>
      obtain ⟨hending, hrest⟩ := List.cons.inj h
      have hlines := ih hrest
      unfold withEndings at hlines ⊢
      rw [List.map_cons, List.zipWith_cons_cons, hlines, ← hending]

namespace Document

/-! ## Line by line -/

/-- Indents a line of a document anew, unless it starts in a comment or a string. -/
def reindentRow (d : Document) (line : Nat) : Except LineOutOfRange Document := do
  let row ← d.row line
  if row.before.inLiteral then
    return d
  let content := trimLeading row.text
  let text := if content.isEmpty then [] else List.replicate (d.indentation row) ' ' ++ content
  let edited ← d.replace line text
  return edited.document

/-- Indents the lines of a document anew, from the first to the last. -/
def reindent (d : Document) : Except LineOutOfRange Document :=
  (List.range d.lineCount).foldlM reindentRow d

theorem row_ofLines (m : Mode) (xs ys : List (List Char)) (x : List Char) :
    (ofLines m (xs ++ x :: ys)).row xs.length =
      .ok ⟨x, m.stateAfter xs (m.start 0), (m.lexLine x (m.stateAfter xs (m.start 0))).1⟩ := by
  have hrow : (ofLines m (xs ++ x :: ys)).rows[xs.length]? =
      some ⟨x, m.stateAfter xs (m.start 0), (m.lexLine x (m.stateAfter xs (m.start 0))).1⟩ := by
    rw [ofLines, Mode.getElem?_rowsOf]
    simp
  rw [row, hrow]

/-- One line is written as in a single pass over the lines, in the state behind the lines above. -/
theorem reindentRow_ofLines (m : Mode) (xs ys : List (List Char)) (x : List Char) :
    (ofLines m (xs ++ x :: ys)).reindentRow xs.length =
      .ok (ofLines m (xs ++ m.reindentLine (m.stateAfter xs (m.start 0)) x :: ys)) := by
  unfold reindentRow
  rw [row_ofLines]
  simp only [bind, Except.bind, pure, Except.pure]
  cases hliteral : (m.stateAfter xs (m.start 0)).inLiteral with
  | true => simp [m.reindentLine_of_inLiteral hliteral]
  | false =>
    -- the indentation that the document proposes is that of the mode in the kept state
    have hline : (if (trimLeading x).isEmpty then [] else
        List.replicate ((ofLines m (xs ++ x :: ys)).indentation
          ⟨x, m.stateAfter xs (m.start 0), (m.lexLine x (m.stateAfter xs (m.start 0))).1⟩) ' ' ++
          trimLeading x) = m.reindentLine (m.stateAfter xs (m.start 0)) x := by
      by_cases hblank : trimLeading x = []
      · rw [m.reindentLine_of_blank hliteral hblank, hblank]
        rfl
      · rw [m.reindentLine_of_content hliteral hblank, if_neg (by simpa using hblank)]
        rfl
    obtain ⟨r, hr, hdoc⟩ :=
      replace_ofLines m xs ys x (m.reindentLine (m.stateAfter xs (m.start 0)) x)
    rw [hline, hr, ← hdoc]
    rfl

/-- With the lines `xs` written, the lines below are written as in a single pass. -/
theorem foldlM_reindentRow_ofLines (m : Mode) (xs : List (List Char)) (lines : List TextLine) :
    (List.range' xs.length lines.length).foldlM reindentRow
        (ofLines m (xs ++ lines.map TextLine.body)) =
      .ok (ofLines m
        (xs ++ (m.reindentLines lines (m.stateAfter xs (m.start 0))).1.map TextLine.body)) := by
  induction lines generalizing xs with
  | nil => rfl
  | cons line lines ih =>
    -- the line just written is one more of those above, and the state behind it is read from it
    have hnext := ih (xs ++ [m.reindentLine (m.stateAfter xs (m.start 0)) line.body])
    rw [List.length_append, List.length_singleton, Mode.stateAfter_append] at hnext
    rw [List.length_cons, List.range'_succ, List.foldlM_cons, List.map_cons, reindentRow_ofLines]
    simpa [Mode.reindentLines, bind, Except.bind] using hnext

theorem reindent_ofText_eq (m : Mode) (text : List Char) :
    (ofText m text).reindent = .ok (ofLines m ((m.writtenLines text).map TextLine.body)) := by
  have hrun := foldlM_reindentRow_ofLines m [] (textLines text)
  rw [reindent, ofText, lineCount_ofLines, lineBodies, List.length_map, List.range_eq_range']
  exact hrun

/-! ## Line by line and in one pass -/

/-- Behind the last line, each line of the document has the indentation proposed for it. -/
theorem leadingBlanks_of_mem_rows (m : Mode) (text : List Char) {row : Row}
    (hrow : row ∈ (ofLines m ((m.writtenLines text).map TextLine.body)).rows)
    (hliteral : row.before.inLiteral = false) (hcontent : trimLeading row.text ≠ []) :
    leadingBlanks row.text = List.replicate (m.indent row.before row.text) ' ' := by
  obtain ⟨i, hi⟩ := List.mem_iff_getElem?.1 hrow
  rw [ofLines, Mode.getElem?_rowsOf, List.getElem?_map, m.getElem?_writtenLines] at hi
  simp only [Option.map_map, Option.map_eq_some_iff, Function.comp] at hi
  obtain ⟨line, -, rfl⟩ := hi
  dsimp only at hliteral hcontent ⊢
  rw [← List.map_take, ← m.writingState_eq] at hliteral ⊢
  rw [Mode.trimLeading_reindentLine] at hcontent
  exact m.leadingBlanks_reindentLine hliteral hcontent

/-- A document indented anew line by line holds the lines that indenting its text anew writes, one
for each line of the text, and ends in the state in which that ends; and each of its lines that is
not blank and starts outside comments and strings has the indentation now proposed for it. -/
theorem reindent_ofText (m : Mode) (text : List Char) :
    ∃ d, (ofText m text).reindent = .ok d ∧ d.mode = m ∧
      d.lines = (m.reindentLines (textLines text) (m.start 0)).1.map TextLine.body ∧
      d.lineCount = (textLines text).length ∧
      joinLines (withEndings d.lines (textLines text)) = m.reindent text ∧
      d.final = (m.reindentLines (textLines text) (m.start 0)).2 ∧
      ∀ row ∈ d.rows, row.before.inLiteral = false → trimLeading row.text ≠ [] →
        leadingBlanks row.text = List.replicate (d.indentation row) ' ' := by
  refine ⟨_, reindent_ofText_eq m text, rfl, lines_ofLines m _, ?_, ?_, ?_,
    fun row hrow => leadingBlanks_of_mem_rows m text hrow⟩
  · rw [lineCount_ofLines, List.length_map]
    exact m.length_reindentLines _ _
  · have hendings := m.map_ending_reindentLines (textLines text) (m.start 0)
    rw [lines_ofLines, Mode.writtenLines, withEndings_map_body hendings]
    rfl
  · rw [final_ofLines]
    exact (m.snd_reindentLines _ _).symm

-- the comment is kept, the line of blanks loses them, and the rest is aligned with the brace
example :
    ((ofText .bare ['\x7b', '\n', '/', '*', '\n', ' ', '*', '/', '\n', ' ', '\n', 'x', ';', '\n',
      '\x7d']).reindent.map lines).toOption =
    some [['\x7b'], [' ', ' ', '/', '*'], [' ', '*', '/'], [], [' ', ' ', 'x', ';'], ['\x7d']] := by
  decide +kernel

end Document

end ShaderText
