/-
Editing a document is editing its lines and reading them all again. After any edits the rows of a
document are those of its lines read from the start state: `Mode.reread` may stop where the state
it reached is the one kept there, because from there on the kept rows are the ones that reading on
would give. An edit at a line number out of range is refused and leaves the document as it was.
-/
import ShaderText.Document
import ShaderText.Proofs.Lexing.Step
import ShaderText.Proofs.Text.Lines

namespace ShaderText

/-! ## Rows of lines -/

namespace Mode

theorem snd_rowsOf (m : Mode) (lines : List (List Char)) (s : State) :
    (m.rowsOf lines s).2 = m.stateAfter lines s := by
  induction lines generalizing s with
  | nil => rfl
  | cons line lines ih => exact ih _

theorem rowsOf_append (m : Mode) (xs ys : List (List Char)) (s : State) :
    m.rowsOf (xs ++ ys) s =
      ((m.rowsOf xs s).1 ++ (m.rowsOf ys (m.stateAfter xs s)).1,
        m.stateAfter ys (m.stateAfter xs s)) := by
  induction xs generalizing s with
  | nil => exact Prod.ext rfl (m.snd_rowsOf ys s)
  | cons x xs ih => simp [rowsOf, ih]

theorem getElem?_rowsOf (m : Mode) (lines : List (List Char)) (s : State) (i : Nat) :
    (m.rowsOf lines s).1[i]? = lines[i]?.map fun line =>
      ⟨line, m.stateAfter (lines.take i) s, (m.lexLine line (m.stateAfter (lines.take i) s)).1⟩ := by
  induction lines generalizing s i with
  | nil => rfl
  | cons line lines ih =>
    cases i with
    | zero => rfl
    | succ i => exact ih _ i

/-- The states in front of the rows, and the one behind them, are those that the lines above leave. -/
theorem getElem?_before_rowsOf (m : Mode) (lines : List (List Char)) (s : State) {i : Nat}
    (h : i ≤ lines.length) :
    ((m.rowsOf lines s).1.map Row.before ++ [m.stateAfter lines s])[i]? =
      some (m.stateAfter (lines.take i) s) := by
  induction lines generalizing s i with
  | nil =>
    rw [Nat.le_zero.1 h]
    rfl
  | cons line lines ih =>
    cases i with
    | zero => rfl
    | succ i => exact ih _ (Nat.le_of_succ_le_succ h)

theorem length_rowsOf (m : Mode) (lines : List (List Char)) (s : State) :
    (m.rowsOf lines s).1.length = lines.length := by
  rw [← List.length_map Row.text, Document.map_text_rowsOf]

/-- Rows that were read from any state, read again from `s`, are the rows read from `s`. -/
theorem reread_rowsOf (m : Mode) (lines : List (List Char)) (t s : State) :
    (m.reread (m.stateAfter lines t) s (m.rowsOf lines t).1).rows = (m.rowsOf lines s).1 ∧
      (m.reread (m.stateAfter lines t) s (m.rowsOf lines t).1).final = m.stateAfter lines s := by
  induction lines generalizing t s with
  | nil => exact ⟨rfl, rfl⟩
  | cons line lines ih =>
    simp only [rowsOf, reread]
    split
    · -- the kept state is the one reached, so all kept rows are right
      rename_i heq
      subst heq
      exact ⟨rfl, rfl⟩
    · obtain ⟨hrows, hfinal⟩ := ih (m.lexLine line t).2 (m.lexLine line s).2
      exact ⟨congrArg _ hrows, hfinal⟩

end Mode

namespace Document

/-! ## One edit of a document that is read from the start state -/

/-- A line read between rows that were read from the start state, and rows below it that were read
from any state. -/
theorem document_withLine (m : Mode) (all xs ys : List (List Char)) (line : List Char) (t : State)
    (hfinal : m.stateAfter all (m.start 0) = m.stateAfter ys t) :
    ((ofLines m all).withLine (m.rowsOf xs (m.start 0)).1 line (m.stateAfter xs (m.start 0))
        (m.rowsOf ys t).1).document = ofLines m (xs ++ line :: ys) := by
  obtain ⟨hrows, hstate⟩ :=
    m.reread_rowsOf ys t (m.lexLine line (m.stateAfter xs (m.start 0))).2
  simp only [withLine, ofLines, Mode.snd_rowsOf, hfinal, hrows, hstate, Mode.rowsOf_append]
  rfl

theorem rows_ofLines_append (m : Mode) (xs ys : List (List Char)) :
    (ofLines m (xs ++ ys)).rows.take xs.length = (m.rowsOf xs (m.start 0)).1 ∧
      (ofLines m (xs ++ ys)).rows.drop xs.length =
        (m.rowsOf ys (m.stateAfter xs (m.start 0))).1 := by
  have hlen := m.length_rowsOf xs (m.start 0)
  simp only [ofLines, Mode.rowsOf_append]
  rw [List.take_left' hlen, List.drop_left' hlen]
  exact ⟨rfl, rfl⟩

theorem final_ofLines (m : Mode) (lines : List (List Char)) :
    (ofLines m lines).final = m.stateAfter lines (m.start 0) :=
  m.snd_rowsOf lines _

theorem lineCount_ofLines (m : Mode) (lines : List (List Char)) :
    (ofLines m lines).lineCount = lines.length :=
  m.length_rowsOf lines _

theorem replace_ofLines (m : Mode) (xs ys : List (List Char)) (x text : List Char) :
    ∃ r, (ofLines m (xs ++ x :: ys)).replace xs.length text = .ok r ∧
      r.document = ofLines m (xs ++ text :: ys) := by
  obtain ⟨htake, hdrop⟩ := rows_ofLines_append m xs (x :: ys)
  unfold replace
  rw [hdrop, htake]
  exact ⟨_, rfl, document_withLine m _ xs ys text _ (m.stateAfter_append xs (x :: ys) _)⟩

theorem insert_ofLines (m : Mode) (xs ys : List (List Char)) (text : List Char) :
    ∃ r, (ofLines m (xs ++ ys)).insert xs.length text = .ok r ∧
      r.document = ofLines m (xs ++ text :: ys) := by
  obtain ⟨htake, hdrop⟩ := rows_ofLines_append m xs ys
  have hfinal := m.stateAfter_append xs ys (m.start 0)
  have hrange : ¬ (ofLines m (xs ++ ys)).lineCount < xs.length := by
    rw [lineCount_ofLines, List.length_append]; omega
  -- behind the last line it is the final state that stands in for a kept one
  have hbefore : (((m.rowsOf ys (m.stateAfter xs (m.start 0))).1.head?.map Row.before).getD
      (ofLines m (xs ++ ys)).final) = m.stateAfter xs (m.start 0) := by
    rw [final_ofLines, hfinal]
    cases ys <;> rfl
  unfold insert
  rw [if_neg hrange, hdrop, htake]
  dsimp only
  rw [hbefore]
  exact ⟨_, rfl, document_withLine m _ xs ys text _ hfinal⟩

theorem remove_ofLines (m : Mode) (xs ys : List (List Char)) (x : List Char) :
    ∃ r, (ofLines m (xs ++ x :: ys)).remove xs.length = .ok r ∧
      r.document = ofLines m (xs ++ ys) := by
  obtain ⟨htake, hdrop⟩ := rows_ofLines_append m xs (x :: ys)
  unfold remove
  rw [hdrop, htake]
  cases ys with
  | nil =>
    refine ⟨_, rfl, ?_⟩
    simp [ofLines, Mode.snd_rowsOf]
  | cons y zs =>
    -- the line that moves up is read again in the state of the removed one
    exact ⟨_, rfl, document_withLine m _ xs zs y _ (m.stateAfter_append xs (x :: y :: zs) _)⟩

end Document

/-! ## Edits -/

/-- One edit, at a line number that need not be in range. -/
inductive Edit
  | replace (line : Nat) (text : List Char)
  | insert (line : Nat) (text : List Char)
  | remove (line : Nat)
  deriving DecidableEq, Repr, Inhabited

namespace Edit

/-- The line number at which an edit is made. -/
def line : Edit → Nat
  | replace line _ | insert line _ | remove line => line

/-- The line numbers for which there is something to edit in `count` lines; a line may also be
inserted behind the last. -/
def InRange (count : Nat) : Edit → Prop
  | replace line _ | remove line => line < count
  | insert line _ => line ≤ count

/-- The lines that an edit leaves; out of range it leaves them as they were. -/
def onLines (lines : List (List Char)) : Edit → List (List Char)
  | replace line text => lines.set line text
  | insert line text => lines.insertIdx line text
  | remove line => lines.eraseIdx line

theorem onLines_of_not_inRange {lines : List (List Char)} {e : Edit}
    (h : ¬ e.InRange lines.length) : e.onLines lines = lines := by
  cases e with
  | replace line text => exact List.set_eq_of_length_le (Nat.le_of_not_lt h)
  | insert line text => exact List.insertIdx_of_length_lt (Nat.lt_of_not_le h)
  | remove line => exact List.eraseIdx_of_length_le (Nat.le_of_not_lt h)

end Edit

namespace Document

/-- Makes one edit. -/
def edit (d : Document) : Edit → Except LineOutOfRange Edited
  | .replace line text => d.replace line text
  | .insert line text => d.insert line text
  | .remove line => d.remove line

/-- The document behind an edit; one that is refused changes nothing. -/
def after (d : Document) (e : Edit) : Document :=
  match d.edit e with
  | .ok r => r.document
  | .error _ => d

/-- The states in front of the lines, from the first line on, and the state behind the last. -/
def checkpoints (d : Document) : List State := d.rows.map Row.before ++ [d.final]

/-- Every line is read from the checkpoint in front of it and leads to the next one, and the first
checkpoint is the start state. -/
structure ReadFromStart (d : Document) : Prop where
  first : d.checkpoints[0]? = some (d.mode.start 0)
  before : ∀ (i : Nat) (row : Row), d.rows[i]? = some row → d.checkpoints[i]? = some row.before
  tokens : ∀ (i : Nat) (row : Row), d.rows[i]? = some row →
    row.tokens = (d.mode.lexLine row.text row.before).1
  next : ∀ (i : Nat) (row : Row), d.rows[i]? = some row →
    d.checkpoints[i + 1]? = some (d.mode.lexLine row.text row.before).2

/-! ### Edits of documents read from the start state -/

theorem exists_append_cons_of_lt {α : Type} {l : List α} {i : Nat} (h : i < l.length) :
    ∃ xs x ys, l = xs ++ x :: ys ∧ xs.length = i := by
  refine ⟨l.take i, l[i], l.drop (i + 1), ?_, List.length_take_of_le (Nat.le_of_lt h)⟩
  rw [← List.drop_eq_getElem_cons h, List.take_append_drop]

theorem insertIdx_append_length {α : Type} (xs ys : List α) (a : α) :
    (xs ++ ys).insertIdx xs.length a = xs ++ a :: ys := by
  induction xs with
  | nil => rfl
  | cons x xs ih => rw [List.cons_append, List.length_cons, List.insertIdx_succ_cons, ih]; rfl

/-- An edit in range is made, and its outcome is the edited lines read from the start state. -/
theorem edit_ofLines (m : Mode) {lines : List (List Char)} {e : Edit}
    (h : e.InRange lines.length) :
    ∃ r, (ofLines m lines).edit e = .ok r ∧ r.document = ofLines m (e.onLines lines) := by
  cases e with
  | replace i text =>
    obtain ⟨xs, x, ys, rfl, rfl⟩ := exists_append_cons_of_lt h
    simp only [edit, Edit.onLines]
    rw [List.set_append_right _ _ (Nat.le_refl _), Nat.sub_self, List.set_cons_zero]
    exact replace_ofLines m xs ys x text
  | insert i text =>
    obtain ⟨xs, ys, rfl, rfl⟩ : ∃ xs ys, lines = xs ++ ys ∧ xs.length = i :=
      ⟨lines.take i, lines.drop i, (List.take_append_drop i lines).symm, List.length_take_of_le h⟩
    simp only [edit, Edit.onLines]
    rw [insertIdx_append_length]
    exact insert_ofLines m xs ys text
  | remove i =>
    obtain ⟨xs, x, ys, rfl, rfl⟩ := exists_append_cons_of_lt h
    simp only [edit, Edit.onLines]
    rw [List.eraseIdx_append_of_length_le (Nat.le_refl _), Nat.sub_self, List.eraseIdx_cons_zero]
    exact remove_ofLines m xs ys x

/-- An edit out of range is refused, whatever the document. -/
theorem edit_of_not_inRange (d : Document) {e : Edit} (h : ¬ e.InRange d.lineCount) :
    d.edit e = .error ⟨e.line, d.lineCount⟩ := by
  cases e with
  | replace i text =>
    simp only [edit, replace, List.drop_eq_nil_of_le (Nat.le_of_not_lt h)]
    rfl
  | insert i text =>
    simp only [edit, insert, if_pos (Nat.lt_of_not_le h)]
    rfl
  | remove i =>
    simp only [edit, remove, List.drop_eq_nil_of_le (Nat.le_of_not_lt h)]
    rfl

theorem after_ofLines (m : Mode) (lines : List (List Char)) (e : Edit) :
    (ofLines m lines).after e = ofLines m (e.onLines lines) := by
  by_cases h : e.InRange lines.length
  · obtain ⟨r, hr, hd⟩ := edit_ofLines m h
    rw [after, hr, ← hd]
  · have hcount : ¬ e.InRange (ofLines m lines).lineCount := by rwa [lineCount_ofLines]
    rw [after, edit_of_not_inRange _ hcount, Edit.onLines_of_not_inRange h]

/-- A document behind any edits is the edited lines read from the start state. -/
theorem foldl_after_ofLines (m : Mode) (lines : List (List Char)) (edits : List Edit) :
    edits.foldl after (ofLines m lines) = ofLines m (edits.foldl Edit.onLines lines) := by
  induction edits generalizing lines with
  | nil => rfl
  | cons e edits ih => rw [List.foldl_cons, List.foldl_cons, after_ofLines, ih]

/-! ### Checkpoints -/

theorem getElem?_checkpoints_ofLines (m : Mode) {lines : List (List Char)} {i : Nat}
    (h : i ≤ lines.length) :
    (ofLines m lines).checkpoints[i]? = some (m.stateAfter (lines.take i) (m.start 0)) := by
  rw [checkpoints, final_ofLines]
  exact m.getElem?_before_rowsOf lines _ h

theorem readFromStart_ofLines (m : Mode) (lines : List (List Char)) :
    (ofLines m lines).ReadFromStart := by
  have hrow : ∀ (i : Nat) (row : Row), (ofLines m lines).rows[i]? = some row →
      i < lines.length ∧ lines.take (i + 1) = lines.take i ++ [row.text] ∧
        row = ⟨row.text, m.stateAfter (lines.take i) (m.start 0),
          (m.lexLine row.text (m.stateAfter (lines.take i) (m.start 0))).1⟩ := by
    intro i row h
    rw [ofLines, Mode.getElem?_rowsOf] at h
    obtain ⟨line, hline, rfl⟩ := Option.map_eq_some_iff.1 h
    obtain ⟨hi, rfl⟩ := List.getElem?_eq_some_iff.1 hline
    exact ⟨hi, List.take_succ_eq_append_getElem hi, rfl⟩
  constructor
  · exact getElem?_checkpoints_ofLines m (Nat.zero_le _)
  · intro i row h
    obtain ⟨hi, -, heq⟩ := hrow i row h
    rw [getElem?_checkpoints_ofLines m (Nat.le_of_lt hi), heq]
  · intro i row h
    obtain ⟨-, -, heq⟩ := hrow i row h
    rw [heq]
    rfl
  · intro i row h
    obtain ⟨hi, htake, heq⟩ := hrow i row h
    rw [getElem?_checkpoints_ofLines m hi, htake, Mode.stateAfter_append, heq]
    rfl

/-! ## Incremental reading -/

/-- After any edits, in any order and at any line numbers, a document holds the edited lines, each
read from the state that the line above leaves and the first from the start state. The next edit is
made if its line number is in range, and refused otherwise with the document kept. If no line holds
a line feed or ends in a carriage return, reading the text of the document anew gives the same
document. -/
theorem readFromStart_foldl_after (m : Mode) (text : List Char) (edits : List Edit) :
    let d := edits.foldl after (ofText m text)
    d.mode = m ∧ d.lines = edits.foldl Edit.onLines (lineBodies text) ∧ d.ReadFromStart ∧
      (∀ e : Edit, e.InRange d.lineCount →
        ∃ r, d.edit e = .ok r ∧ r.document.lines = e.onLines d.lines) ∧
      (∀ e : Edit, ¬ e.InRange d.lineCount →
        d.edit e = .error ⟨e.line, d.lineCount⟩ ∧ d.after e = d) ∧
      ((∀ line ∈ d.lines, '\n' ∉ line ∧ line.getLast? ≠ some '\r') → ofText m d.text = d) := by
  intro d
  obtain ⟨lines, hd, hlines⟩ : ∃ lines, d = ofLines m lines ∧
      lines = edits.foldl Edit.onLines (lineBodies text) :=
    ⟨_, foldl_after_ofLines m (lineBodies text) edits, rfl⟩
  clear_value d
  subst hd
  have hkept : (ofLines m lines).lines = lines := lines_ofLines m lines
  refine ⟨rfl, hkept.trans hlines, readFromStart_ofLines m lines, fun e he => ?_, fun e he => ?_,
    fun hplain => ?_⟩
  · rw [lineCount_ofLines] at he
    obtain ⟨r, hr, hdoc⟩ := edit_ofLines m he
    exact ⟨r, hr, by rw [hdoc, lines_ofLines, lines_ofLines]⟩
  · have hrefused := edit_of_not_inRange _ he
    exact ⟨hrefused, by rw [after, hrefused]⟩
  · rw [hkept] at hplain
    rw [ofText, Document.text, hkept, lineBodies_flatMap_feed hplain]

/-- A comment is opened above a brace and closed behind it, with a refused edit in between. -/
theorem readFromStart_foldl_after_comment :
    let d := [.insert 1 ['/', '*'], .replace 5 ['x'], .remove 0, .insert 2 ['*', '/']].foldl after
      (ofText .bare ['x', '\n', '\x7b', '\n'])
    d.lines = [['/', '*'], ['\x7b'], ['*', '/']] ∧
      (∀ line ∈ d.lines, '\n' ∉ line ∧ line.getLast? ≠ some '\r') ∧ ofText .bare d.text = d := by
  intro d
  have hlines : d.lines = [['/', '*'], ['\x7b'], ['*', '/']] := by decide +kernel
  have hplain : ∀ line ∈ d.lines, '\n' ∉ line ∧ line.getLast? ≠ some '\r' := by
    rw [hlines]
    decide
  exact ⟨hlines, hplain, (readFromStart_foldl_after .bare _ _).2.2.2.2.2 hplain⟩

end Document

end ShaderText
