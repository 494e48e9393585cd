/-
Columns of tokens. The column that is reported with a token is that of its offset in the line; the columns of
the tokens of a line grow strictly, as long as they are numbers of 64 bits; and the first of them is the
indentation of the line, whether the leading blanks are read as a token of their own or trimmed.
-/
import ShaderText.Proofs.Lexing.Tiling

namespace ShaderText

/-! ## Leading blanks -/

theorem byteLength_sub_trimLeading (line : List Char) :
    byteLength line - byteLength (trimLeading line) = byteLength (leadingBlanks line) := by
  have hparts := congrArg byteLength (leadingBlanks_append_trimLeading line)
  rw [byteLength_append] at hparts
  omega

theorem columnAt_leadingBlanks (tabSize : Nat) (line : List Char) :
    columnAt tabSize line (byteLength (leadingBlanks line)) = columnWidth tabSize (leadingBlanks line) := by
  have hcolumn := columnAt_byteLength tabSize (leadingBlanks line) (trimLeading line)
  rwa [leadingBlanks_append_trimLeading] at hcolumn

/-- In front of the first token are just the leading blanks. -/
theorem Tiles.start_head {start : Nat} {cs : List Char} {t : Token} {ts : List Token}
    (h : Tiles start cs (t :: ts)) : t.start = start + byteLength (leadingBlanks cs) := by
  cases h with
  | @token _ gap rest _ _ hgap htext hstart _ _ =>
    obtain ⟨-, hnone, -, -⟩ := htext.parts rfl (rfl : t.text ++ rest = t.text ++ rest)
    have hblanks : leadingBlanks (gap ++ t.text ++ rest) = gap ++ leadingBlanks (t.text ++ rest) := by
      rw [List.append_assoc]
      exact List.takeWhile_append_of_pos hgap
    rw [hstart, hblanks, hnone, List.append_nil]

namespace Cursor

/-- Behind the leading blanks a token starts at the column that is the indentation. -/
theorem column_eatBlanks (line : List Char) (tabSize : Nat) :
    (ofLine line tabSize).eatBlanks.2.startToken.column = (ofLine line tabSize).indentation := by
  have hread : (ofLine line tabSize).eatBlanks.2.startToken.column =
      columnWidth tabSize (line.take (leadingBlanks line).length) := rfl
  rw [hread, leadingBlanks, take_length_takeWhile]
  rfl

end Cursor

/-! ## Lines -/

namespace Mode

theorem tabSize_of_mem_stepsFrom (m : Mode) (c : Cursor) (s : State) :
    ∀ r ∈ m.stepsFrom c s, r.cursor.tabSize = c.tabSize := by
  induction c, s using m.reading_induction with
  | atEnd c s hrest => simp [m.stepsFrom_of_end s hrest]
  | step c s hrest ih =>
    obtain ⟨n, hcursor, -⟩ := m.cursor_step c s
    rw [m.stepsFrom_of_rest s hrest, List.forall_mem_cons]
    refine ⟨by rw [hcursor]; rfl, fun r hr => ?_⟩
    rw [ih r hr, hcursor]
    rfl

/-- The column that is reported with a token is that of its offset in the line. -/
theorem column_of_token? (m : Mode) {line : List Char} {s : State} {r : Step} (hr : r ∈ m.lineSteps line s)
    {t : Token} (ht : r.token? = some t) : r.cursor.column = columnAt m.tabSize line t.start := by
  obtain ⟨x, -, rfl⟩ := Option.map_eq_some_iff.1 ht
  have hline : r.cursor.line = line := m.line_of_mem_stepsFrom (m.cursor line) s r hr
  have htab : r.cursor.tabSize = m.tabSize := m.tabSize_of_mem_stepsFrom (m.cursor line) s r hr
  rw [← hline, ← htab, r.cursor.columnAt_start]

/-- As long as they fit, the columns of the tokens of a line grow strictly. -/
theorem pairwise_column_lexLine (m : Mode) (line : List Char) (s : State) :
    (m.lexLine line s).1.Pairwise fun t t' => FitsTo m.tabSize line t'.start →
      columnAt m.tabSize line t.start < columnAt m.tabSize line t'.start := by
  have htiles := m.tiles_lexLine line s
  refine htiles.pairwise.imp_of_mem fun ht ht' hle => ?_
  have hline := htiles.onLine [] _ ht
  have hline' := htiles.onLine [] _ ht'
  exact columnAt_lt_columnAt hline.isBoundary_start hline'.isBoundary_start
    (Nat.lt_of_lt_of_le hline.ordered hle)

/-- The first token of a line stands at the indentation of the line. -/
theorem columnAt_head_lexLine (m : Mode) {line : List Char} {s : State} {t : Token}
    (h : (m.lexLine line s).1.head? = some t) :
    columnAt m.tabSize line t.start = (m.cursor line).indentation := by
  obtain ⟨ts, hts⟩ := List.head?_eq_some_iff.1 h
  have htiles := m.tiles_lexLine line s
  rw [hts] at htiles
  rw [htiles.start_head]
  exact (congrArg _ (Nat.zero_add _)).trans (columnAt_leadingBlanks m.tabSize line)

end Mode

end ShaderText
