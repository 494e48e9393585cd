/-
Indenting anew preserves the program. In a mode whose hooks are all directives a text and the text
indented anew have, line by line, tokens of the same categories and texts, and they end in states
that are alike. Only leading blanks differ: every line keeps what stands behind them and its ending,
and a line that starts in a comment or a string is kept whole. A last line of blanks that is not
terminated may vanish.
-/
import ShaderText.Proofs.Lexing.Alike
import ShaderText.Proofs.Reindent.Lines

namespace ShaderText

/-! ## Texts without their layout -/

/-- A line without its leading blanks. -/
def TextLine.trimmed (line : TextLine) : TextLine := { line with body := trimLeading line.body }

/-- A text without the leading blanks of its lines. -/
def trimmedText (text : List Char) : List Char :=
  joinLines ((textLines text).map TextLine.trimmed)

/-- The last line of a text is not terminated and has no characters but blanks. -/
def EndsBlank (text : List Char) : Prop :=
  ∃ last, (textLines text).getLast? = some last ∧ last.ending = .none ∧ trimLeading last.body = []

namespace Mode

/-- The tokens of each line of a text, without their places. -/
def plainRows (m : Mode) (text : List Char) : List (List (Category × List Char)) :=
  (m.lexText text).1.map (·.map Token.plain)

/-! ## The written lines -/

theorem map_trimmed_reindentLines (m : Mode) (lines : List TextLine) (s : State) :
    (m.reindentLines lines s).1.map TextLine.trimmed = lines.map TextLine.trimmed := by
  induction lines generalizing s with
  | nil => rfl
  | cons line lines ih => simp [reindentLines, TextLine.trimmed, trimLeading_reindentLine, ih]

theorem map_trimmed_writtenLines (m : Mode) (text : List Char) :
    (m.writtenLines text).map TextLine.trimmed = (textLines text).map TextLine.trimmed :=
  m.map_trimmed_reindentLines _ _

/-- If the last written line has no characters, the text ends in a line of blanks. -/
theorem endsBlank_of_writtenLines_eq (m : Mode) {text : List Char} {lines : List TextLine}
    (h : m.writtenLines text = lines ++ [⟨[], .none⟩]) : EndsBlank text := by
  have hmap := m.map_trimmed_writtenLines text
  have hlast : ((textLines text).map TextLine.trimmed).getLast? = some ⟨[], .none⟩ := by
    rw [← hmap, h, List.map_append]
    exact List.getLast?_concat
  rw [List.getLast?_map] at hlast
  obtain ⟨last, hmem, htrimmed⟩ := Option.map_eq_some_iff.1 hlast
  refine ⟨last, hmem, ?_, ?_⟩
  · exact congrArg TextLine.ending htrimmed
  · exact congrArg TextLine.body htrimmed

theorem trimmedText_reindent (m : Mode) (text : List Char) :
    trimmedText (m.reindent text) = trimmedText text := by
  unfold trimmedText
  rw [← m.map_trimmed_writtenLines text]
  rcases m.writtenLines_eq_or text with heq | heq
  · rw [heq]
  · rw [heq, List.map_append, joinLines_append]
    exact (List.append_nil _).symm

variable {m : Mode}

/-- Lines indented anew read like the lines they were. -/
theorem lexLines_reindentLines (h : m.hooks.OnlyDirectives) (lines : List TextLine) (s : State) :
    (m.lexLines ((m.reindentLines lines s).1.map TextLine.body) s).1.map (·.map Token.plain) =
        (m.lexLines (lines.map TextLine.body) s).1.map (·.map Token.plain) ∧
      (m.stateAfter ((m.reindentLines lines s).1.map TextLine.body) s).Alike
        (m.stateAfter (lines.map TextLine.body) s) := by
  refine lexLines_alike h ?_ (.refl s)
  rw [List.map_map, List.map_map]
  exact m.map_trimLeading_reindentLines lines s

/-- A line is written in a state like the one in which it starts in the text. -/
theorem writingState_alike (h : m.hooks.OnlyDirectives) (text : List Char) (i : Nat) :
    (m.writingState text i).Alike (m.stateAfter ((lineBodies text).take i) (m.start 0)) := by
  obtain ⟨-, halike⟩ := lexLines_reindentLines h ((textLines text).take i) (m.start 0)
  rwa [← snd_reindentLines, List.map_take] at halike

/-- Reading the written lines gives the rows of the text indented anew, and one more without tokens
if its last line vanished. -/
theorem lexLines_writtenLines (m : Mode) (text : List Char) :
    ((m.lexLines ((m.writtenLines text).map TextLine.body) (m.start 0)).1 =
          (m.lexText (m.reindent text)).1 ∨
        (m.lexLines ((m.writtenLines text).map TextLine.body) (m.start 0)).1 =
          (m.lexText (m.reindent text)).1 ++ [[]] ∧ EndsBlank text) ∧
      m.stateAfter ((m.writtenLines text).map TextLine.body) (m.start 0) =
        (m.lexText (m.reindent text)).2 := by
  rcases m.writtenLines_eq_or text with heq | heq
  · rw [← heq]
    exact ⟨.inl rfl, rfl⟩
  · have hblank := m.endsBlank_of_writtenLines_eq heq
    rw [heq, List.map_append, List.map_singleton, stateAfter_append, lexLines_append, stateAfter_cons,
      lexLines, lexLine_nil]
    exact ⟨.inr ⟨rfl, hblank⟩, rfl⟩

/-! ## Preservation -/

/-- Indenting a text anew keeps its tokens, the state behind it up to layout, what stands behind the
leading blanks of its lines, the lines that start in a comment or a string, and the endings. -/
theorem plainRows_reindent (m : Mode) (h : m.hooks.OnlyDirectives) (text : List Char) :
    (m.plainRows text = m.plainRows (m.reindent text) ∨
        m.plainRows text = m.plainRows (m.reindent text) ++ [[]] ∧ EndsBlank text) ∧
      (m.lexText (m.reindent text)).2.region = (m.lexText text).2.region ∧
      (m.lexText (m.reindent text)).2.nesting.kinds = (m.lexText text).2.nesting.kinds ∧
      trimmedText (m.reindent text) = trimmedText text ∧
      ∀ (i : Nat) (line : TextLine), (textLines text)[i]? = some line →
        ((m.stateAfter ((lineBodies text).take i) (m.start 0)).inLiteral = true →
          (textLines (m.reindent text))[i]? = some line) ∧
        (line.ending ≠ .none →
          ((textLines (m.reindent text))[i]?).map TextLine.ending = some line.ending) := by
  obtain ⟨hrows, hstate⟩ := m.lexLines_writtenLines text
  obtain ⟨hplain, halike⟩ := lexLines_reindentLines h (textLines text) (m.start 0)
  have hfinal : (m.lexText (m.reindent text)).2.Alike (m.lexText text).2 := hstate ▸ halike
  refine ⟨?_, hfinal.region, hfinal.kinds, m.trimmedText_reindent text, fun i line hline => ⟨?_, ?_⟩⟩
  · -- the written lines read like the text, and the text indented anew like the written lines
    have hsource : m.plainRows text = (m.lexLines ((m.writtenLines text).map TextLine.body)
        (m.start 0)).1.map (·.map Token.plain) := hplain.symm
    rcases hrows with hrows | ⟨hrows, hblank⟩
    · exact .inl (by rw [hsource, hrows, plainRows])
    · refine .inr ⟨?_, hblank⟩
      rw [hsource, hrows, List.map_append, plainRows]
      rfl
  · -- the line is written in a literal too, so it is written as it is and has characters
    intro hliteral
    have hwriting : (m.writingState text i).inLiteral = true := by
      rw [(writingState_alike h text i).inLiteral_eq, hliteral]
    refine m.getElem?_textLines_reindent ?_ ?_
    · rw [getElem?_writtenLines, hline, Option.map_some, m.reindentLine_of_inLiteral hwriting]
    · exact chars_ne_nil_of_mem_textLines text line (List.mem_of_getElem? hline)
  · -- a line that is terminated has characters whatever its body, so it cannot vanish
    intro hending
    have hwritten : (m.writtenLines text)[i]? =
        some { line with body := m.reindentLine (m.writingState text i) line.body } := by
      rw [getElem?_writtenLines, hline, Option.map_some]
    rw [m.getElem?_textLines_reindent hwritten, Option.map_some]
    intro hnil
    exact hending (congrArg TextLine.ending ((TextLine.chars_eq_nil_iff _).1 hnil))

/-- A directive, a comment that starts behind a brace and holds one, and a last line of blanks that
vanishes. -/
theorem plainRows_reindent_comment :
    let m : Mode := { Mode.bare with hooks := .shader }
    let text := [' ', '#', '\x7b', '\n', '\t', '\x7b', '/', '*', '\r', '\n', ' ', '\x7d', '\n', '*', '/',
      'x', '\n', ' ', ' ']
    m.hooks.OnlyDirectives ∧
      m.reindent text = ['#', '\x7b', '\n', '\x7b', '/', '*', '\r', '\n', ' ', '\x7d', '\n', '*', '/',
        'x', '\n'] ∧
      m.plainRows text = m.plainRows (m.reindent text) ++ [[]] ∧
      (textLines (m.reindent text))[2]? = some ⟨[' ', '\x7d'], .lf⟩ := by
  intro m text
  have hhooks : m.hooks.OnlyDirectives := HookTable.onlyDirectives_shader
  obtain ⟨hrows, -, -, -, hlines⟩ := plainRows_reindent m hhooks text
  refine ⟨hhooks, by decide +kernel, ?_, ?_⟩
  · rcases hrows with hrows | ⟨hrows, -⟩
    · exact absurd hrows (by decide +kernel)
    · exact hrows
  · exact (hlines 2 _ (by decide +kernel)).1 (by decide +kernel)

end Mode

end ShaderText
