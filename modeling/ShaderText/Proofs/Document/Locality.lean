/-
How much an edit reads again. Rows are read again up to the first for which the state reached is the one
kept, and no further; the rows behind it, and the state behind the last of them, stay as they were. So an
edit reads the least number of lines with which it can stop, and no line above or below those is touched.
-/
import Mathlib.Order.Bounds.Defs
import ShaderText.Proofs.Document.Edit

namespace ShaderText

/-! ## Reading rows again -/

namespace Mode

/-- Behind the first `k` rows, read from state `s` on, nothing is left to read again: there are no more
rows, or the state reached is the one kept for the next row. -/
def Settled (m : Mode) (s : State) (rows : List Row) (k : Nat) : Prop :=
  k = rows.length ∨ rows[k]?.map Row.before = some (m.stateAfter ((rows.take k).map Row.text) s)

theorem settled_cons_succ (m : Mode) (s : State) (row : Row) (rows : List Row) (k : Nat) :
    m.Settled s (row :: rows) (k + 1) ↔ m.Settled (m.lexLine row.text s).2 rows k := by
  simp [Settled]

/-- Reading again stops at the first place where it may. -/
theorem isLeast_count_reread (m : Mode) (final s : State) (rows : List Row) :
    IsLeast {k | m.Settled s rows k} (m.reread final s rows).count := by
  induction rows generalizing s with
  | nil => exact ⟨.inl rfl, fun k _ => Nat.zero_le k⟩
  | cons row rows ih =>
    unfold reread
    split
    · rename_i hkept
      exact ⟨.inr (congrArg some hkept), fun k _ => Nat.zero_le k⟩
    · rename_i hchanged
      obtain ⟨hsettled, hleast⟩ := ih (m.lexLine row.text s).2
      refine ⟨(m.settled_cons_succ s row rows _).2 hsettled, fun k hk => ?_⟩
      cases k with
      | zero =>
        rcases hk with hend | hkept
        · cases hend
        · exact absurd (Option.some.inj hkept) hchanged
      | succ k => exact Nat.succ_le_succ (hleast ((m.settled_cons_succ s row rows k).1 hk))

/-- The rows behind those that were read again are the ones kept. -/
theorem getElem?_rows_reread (m : Mode) (final s : State) (rows : List Row) {j : Nat}
    (h : (m.reread final s rows).count ≤ j) : (m.reread final s rows).rows[j]? = rows[j]? := by
  induction rows generalizing s j with
  | nil => rfl
  | cons row rows ih =>
    unfold reread at h ⊢
    split at h
    · rw [if_pos ‹_›]
    · rw [if_neg ‹_›]
      cases j with
      | zero => cases h
      | succ j => exact ih _ (Nat.le_of_succ_le_succ h)

/-- If not all rows were read again, the state behind them is the one kept. -/
theorem final_reread (m : Mode) (final s : State) (rows : List Row)
    (h : (m.reread final s rows).count < rows.length) : (m.reread final s rows).final = final := by
  induction rows generalizing s with
  | nil => cases h
  | cons row rows ih =>
    unfold reread at h ⊢
    split at h
    · rw [if_pos ‹_›]
    · rw [if_neg ‹_›]
      exact ih _ (Nat.lt_of_succ_lt_succ h)

end Mode

/-! ## Lines below an edit -/

/-- The number that a line below the edited one had before the edit. -/
def Edit.origin : Edit → Nat → Nat
  | .replace _ _, line => line
  | .insert _ _, line => line - 1
  | .remove _, line => line + 1

namespace Document

/-- Behind `k` lines, read from state `before` on from the line of an edit that leads from `d` to `d'`,
nothing is left to read again: the lines are at their end, or the state reached is the one that `d` kept
for the line that is next. -/
def SettledBehind (d d' : Document) (e : Edit) (before : State) (k : Nat) : Prop :=
  e.line + k = d'.lineCount ∨
    d.rows[e.origin (e.line + k)]?.map Row.before =
      some (d.mode.stateAfter ((d'.lines.drop e.line).take k) before)

/-- What an edit of `d` leaves as it was: the lines above the edited one, those below the `count` lines
that were read again, and the final state if there are such lines. -/
structure Frame (d : Document) (e : Edit) (r : Edited) : Prop where
  above : ∀ line < e.line, r.document.rows[line]? = d.rows[line]?
  below : ∀ line, e.line + r.count ≤ line → r.document.rows[line]? = d.rows[e.origin line]?
  final : e.line + r.count < r.document.lineCount → r.document.final = d.final

section

variable {d : Document} {e : Edit} {above below : List Row} {line : List Char} {before : State}

theorem lines_withLine (d : Document) (above : List Row) (line : List Char) (before : State)
    (below : List Row) :
    (d.withLine above line before below).document.lines =
      above.map Row.text ++ line :: below.map Row.text := by
  simp [withLine, lines, map_text_reread]

theorem lineCount_withLine (d : Document) (above : List Row) (line : List Char) (before : State)
    (below : List Row) :
    (d.withLine above line before below).document.lineCount = above.length + (below.length + 1) := by
  have hlines := congrArg List.length (d.lines_withLine above line before below)
  simpa [lines, lineCount] using hlines

theorem count_withLine (d : Document) (above : List Row) (line : List Char) (before : State)
    (below : List Row) :
    (d.withLine above line before below).count =
      (d.mode.reread d.final (d.mode.lexLine line before).2 below).count + 1 := rfl

theorem final_withLine (d : Document) (above : List Row) (line : List Char) (before : State)
    (below : List Row) :
    (d.withLine above line before below).document.final =
      (d.mode.reread d.final (d.mode.lexLine line before).2 below).final := rfl

theorem rows_withLine (d : Document) (above : List Row) (line : List Char) (before : State)
    (below : List Row) :
    (d.withLine above line before below).document.rows =
      above ++ ⟨line, before, (d.mode.lexLine line before).1⟩ ::
        (d.mode.reread d.final (d.mode.lexLine line before).2 below).rows := rfl

/-- The line and those below it are read until nothing is left to read. -/
theorem isLeast_count_withLine (habove : above.length = e.line)
    (hbelow : ∀ j, d.rows[e.origin (e.line + (j + 1))]? = below[j]?) :
    IsLeast {k | 1 ≤ k ∧ d.SettledBehind (d.withLine above line before below).document e before k}
      (d.withLine above line before below).count := by
  have hsettled (j : Nat) :
      d.SettledBehind (d.withLine above line before below).document e before (j + 1) ↔
        d.mode.Settled (d.mode.lexLine line before).2 below j := by
    unfold SettledBehind Mode.Settled
    rw [hbelow, lines_withLine, lineCount_withLine, habove,
      List.drop_left' ((List.length_map _).trans habove), List.take_succ_cons, Mode.stateAfter_cons,
      List.map_take]
    simp
  obtain ⟨hcount, hleast⟩ :=
    d.mode.isLeast_count_reread d.final (d.mode.lexLine line before).2 below
  rw [count_withLine]
  refine ⟨⟨Nat.succ_pos _, (hsettled _).2 hcount⟩, ?_⟩
  rintro k ⟨hpos, hk⟩
  obtain ⟨j, rfl⟩ := Nat.exists_eq_add_of_le' hpos
  exact Nat.succ_le_succ (hleast ((hsettled j).1 hk))

/-- All other lines stay as they were. -/
theorem frame_withLine (hline : e.line ≤ d.lineCount)
    (hbelow : ∀ j, d.rows[e.origin (e.line + (j + 1))]? = below[j]?) :
    d.Frame e (d.withLine (d.rows.take e.line) line before below) := by
  have hlength : (d.rows.take e.line).length = e.line := List.length_take_of_le hline
  constructor
  · intro j hj
    have hlt : j < (d.rows.take e.line).length := hlength.symm ▸ hj
    rw [rows_withLine, List.getElem?_append_left hlt, List.getElem?_take_of_lt hj]
  · intro j hj
    rw [count_withLine] at hj
    obtain ⟨k, rfl⟩ : ∃ k, j = e.line + (k + 1) := ⟨j - e.line - 1, by omega⟩
    rw [hbelow, rows_withLine, List.getElem?_append_right (by omega), hlength, Nat.add_sub_cancel_left,
      List.getElem?_cons_succ]
    exact d.mode.getElem?_rows_reread _ _ _ (by omega)
  · intro hlt
    rw [count_withLine, lineCount_withLine, hlength] at hlt
    rw [final_withLine]
    exact d.mode.final_reread _ _ _ (by omega)

end

/-! ## Edits -/

theorem getElem?_checkpoints (d : Document) {i : Nat} {row : Row} (h : d.rows[i]? = some row) :
    d.checkpoints[i]? = some row.before := by
  obtain ⟨hlt, rfl⟩ := List.getElem?_eq_some_iff.1 h
  rw [checkpoints, List.getElem?_append_left (by simpa using hlt)]
  simp [hlt]

/-- The state in which an inserted line starts is the one kept for the line that it moves down, or the
final state behind the last line. -/
theorem getElem?_checkpoints_head (d : Document) {i : Nat} (h : i ≤ d.lineCount) :
    d.checkpoints[i]? = some (((d.rows.drop i).head?.map Row.before).getD d.final) := by
  rw [List.head?_drop]
  cases hrow : d.rows[i]? with
  | some row => exact d.getElem?_checkpoints hrow
  | none =>
    have hend : i = (d.rows.map Row.before).length := by
      rw [List.length_map]
      exact Nat.le_antisymm h (List.getElem?_eq_none_iff.1 hrow)
    rw [checkpoints, hend, List.getElem?_concat_length]
    rfl

/-- An edit reads a line between rows that are there already, unless it removes the last line. -/
theorem edit_eq_withLine (d : Document) {e : Edit} (h : e.InRange d.lineCount)
    (hlast : ∀ i, e = .remove i → i + 1 ≠ d.lineCount) :
    ∃ line before below, d.edit e = .ok (d.withLine (d.rows.take e.line) line before below) ∧
      d.checkpoints[e.line]? = some before ∧ ∀ j, d.rows[e.origin (e.line + (j + 1))]? = below[j]? := by
  cases e with
  | replace i text =>
    have hdrop : d.rows.drop i = d.rows[i] :: d.rows.drop (i + 1) := List.drop_eq_getElem_cons h
    refine ⟨text, d.rows[i].before, d.rows.drop (i + 1), ?_,
      d.getElem?_checkpoints (List.getElem?_eq_getElem h), fun j => ?_⟩
    · simp only [edit, replace, hdrop]
      rfl
    · rw [List.getElem?_drop, Nat.add_assoc, Nat.add_comm 1]
      rfl
  | insert i text =>
    refine ⟨text, _, d.rows.drop i, ?_, d.getElem?_checkpoints_head h, fun j => ?_⟩
    · simp only [edit, insert, if_neg (Nat.not_lt.2 h)]
      rfl
    · rw [List.getElem?_drop]
      rfl
  | remove i =>
    have hlt : i + 1 < d.rows.length := Nat.lt_of_le_of_ne h (hlast i rfl)
    have hdrop : d.rows.drop i = d.rows[i] :: d.rows[i + 1] :: d.rows.drop (i + 2) := by
      rw [List.drop_eq_getElem_cons h, List.drop_eq_getElem_cons hlt]
    -- the line that moves up is read again in the state of the removed one
    refine ⟨d.rows[i + 1].text, d.rows[i].before, d.rows.drop (i + 2), ?_,
      d.getElem?_checkpoints (List.getElem?_eq_getElem h), fun j => ?_⟩
    · simp only [edit, remove, hdrop]
      rfl
    · rw [List.getElem?_drop]
      exact congrArg (d.rows[·]?) (by simp only [Edit.origin, Edit.line]; omega)

/-- To remove the last line nothing is read: behind the lines above it is the state kept for it. -/
theorem remove_last (d : Document) {i : Nat} (h : i + 1 = d.lineCount) :
    ∃ before, d.checkpoints[i]? = some before ∧
      d.remove i = .ok ⟨{ d with rows := d.rows.take i, final := before }, 0⟩ := by
  have hlt : i < d.rows.length := Nat.lt_of_succ_le (Nat.le_of_eq h)
  have hdrop : d.rows.drop i = [d.rows[i]] := by
    rw [List.drop_eq_getElem_cons hlt, List.drop_eq_nil_of_le (Nat.le_of_eq h.symm)]
  refine ⟨d.rows[i].before, d.getElem?_checkpoints (List.getElem?_eq_getElem hlt), ?_⟩
  simp only [remove, hdrop]

/-- An edit in range is made. Unless it removes the last line, it reads again as few lines as it can, at
least one; to remove the last line it reads none. All other lines stay as they were. -/
theorem edit_reads_least (d : Document) {e : Edit} (h : e.InRange d.lineCount) :
    ∃ r before, d.edit e = .ok r ∧ d.checkpoints[e.line]? = some before ∧
      (e ≠ .remove r.document.lineCount →
        IsLeast {k | 1 ≤ k ∧ d.SettledBehind r.document e before k} r.count) ∧
      (e = .remove r.document.lineCount → r.count = 0) ∧ d.Frame e r := by
  by_cases hlast : ∃ i, e = .remove i ∧ i + 1 = d.lineCount
  · obtain ⟨i, rfl, hi⟩ := hlast
    obtain ⟨before, hbefore, hremove⟩ := d.remove_last hi
    have hlength : (d.rows.take i).length = i := List.length_take_of_le (Nat.le_of_lt h)
    refine ⟨_, before, hremove, hbefore, fun hne => absurd (congrArg Edit.remove hlength.symm) hne,
      fun _ => rfl, fun j hj => List.getElem?_take_of_lt hj, fun j hj => ?_, fun hlt => ?_⟩
    · -- neither before nor behind the edit are there lines from here on
      have hj : i ≤ j := hj
      have hend : d.rows.length ≤ j + 1 := Nat.le_trans (Nat.le_of_eq hi.symm) (Nat.succ_le_succ hj)
      rw [List.getElem?_take_eq_none hj]
      exact (List.getElem?_eq_none hend).symm
    · exact absurd hlt (Nat.not_lt_of_le (Nat.le_of_eq hlength))
  · obtain ⟨line, before, below, hedit, hbefore, hbelow⟩ :=
      d.edit_eq_withLine h fun i he hi => hlast ⟨i, he, hi⟩
    have hline : e.line ≤ d.lineCount := by
      cases e with
      | replace | remove => exact Nat.le_of_lt h
      | insert => exact h
    have hlength : (d.rows.take e.line).length = e.line := List.length_take_of_le hline
    refine ⟨_, before, hedit, hbefore, fun _ => isLeast_count_withLine hlength hbelow, fun he => ?_,
      frame_withLine hline hbelow⟩
    have hcount := congrArg Edit.line he
    rw [lineCount_withLine, hlength] at hcount
    exact absurd hcount (Nat.ne_of_lt (Nat.lt_add_of_pos_right (Nat.succ_pos _)))

/-- A comment is opened in the first line. The second line closes it, where it held a whole comment before;
behind it nothing has changed. -/
theorem edit_reads_least_comment :
    let d := ofLines .bare [['x', ';'], ['/', '*', '*', '/'], ['y', ';'], ['z', '(']]
    let e := Edit.replace 0 ['/', '*']
    e.InRange d.lineCount ∧ ∃ r before, d.edit e = .ok r ∧
      IsLeast {k | 1 ≤ k ∧ d.SettledBehind r.document e before k} r.count ∧ r.count = 2 ∧
        r.document.rows[2]? = d.rows[2]? ∧ r.document.final = d.final := by
  intro d e
  have hrange : e.InRange d.lineCount := by
    rw [lineCount_ofLines]
    exact Nat.succ_pos 3
  have hcounts : ((d.edit e).toOption.map Edited.count, (d.edit e).toOption.map (·.document.lineCount)) =
      (some 2, some 4) := by decide +kernel
  obtain ⟨r, before, hedit, -, hleast, -, hframe⟩ := d.edit_reads_least hrange
  rw [hedit, Prod.mk.injEq] at hcounts
  have hcount : r.count = 2 := Option.some.inj hcounts.1
  have hlines : r.document.lineCount = 4 := Option.some.inj hcounts.2
  refine ⟨hrange, r, before, hedit, hleast (by simp [e]), hcount, hframe.below 2 ?_, hframe.final ?_⟩
  · rw [hcount]
    decide
  · rw [hcount, hlines]
    decide

end Document

end ShaderText
