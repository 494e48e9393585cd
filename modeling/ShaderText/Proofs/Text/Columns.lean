/-
Arithmetic of columns. Counted without a bound, columns grow strictly, a multiple of the tab size stands
behind every tab, and the width of a text may be counted from its own start where it begins at such a
multiple or has no tab. The columns of a text are the same as long as they are numbers of 64 bits; from the
first on that is too large they are not, and may be smaller than those before.
-/
import ShaderText.Column

namespace ShaderText

theorem byteLength_pos {cs : List Char} (h : cs ≠ []) : 0 < byteLength cs := by
  cases cs with
  | nil => exact absurd rfl h
  | cons c cs =>
    have hc := c.utf8Size_pos
    simp only [byteLength]
    omega

/-! ## Counting without a bound -/

/-- The column behind a character, without a bound. -/
def exactAfter (tabSize column : Nat) (c : Char) : Nat := column + widthAt tabSize column c

/-- The column behind a text that starts at column `column`, without a bound. -/
def exactFrom (tabSize column : Nat) (cs : List Char) : Nat := cs.foldl (exactAfter tabSize) column

theorem exactFrom_append (tabSize column : Nat) (cs ds : List Char) :
    exactFrom tabSize column (cs ++ ds) = exactFrom tabSize (exactFrom tabSize column cs) ds :=
  List.foldl_append

theorem lt_exactAfter (tabSize column : Nat) (c : Char) : column < exactAfter tabSize column c := by
  unfold exactAfter widthAt
  split
  · rename_i h
    have := Nat.mod_lt column h.2
    omega
  · omega

theorem le_exactFrom (tabSize column : Nat) (cs : List Char) : column ≤ exactFrom tabSize column cs := by
  induction cs generalizing column with
  | nil => exact Nat.le_refl _
  | cons c cs ih => exact Nat.le_trans (Nat.le_of_lt (lt_exactAfter tabSize column c)) (ih _)

theorem lt_exactFrom (tabSize column : Nat) {cs : List Char} (h : cs ≠ []) :
    column < exactFrom tabSize column cs := by
  obtain ⟨c, cs, rfl⟩ := List.exists_cons_of_ne_nil h
  exact Nat.lt_of_lt_of_le (lt_exactAfter tabSize column c) (le_exactFrom tabSize _ cs)

theorem dvd_exactAfter_tab {tabSize : Nat} (h : 0 < tabSize) (column : Nat) :
    tabSize ∣ exactAfter tabSize column '\t' := by
  have hlt := Nat.mod_lt column h
  have hdiv := Nat.div_add_mod column tabSize
  refine ⟨column / tabSize + 1, ?_⟩
  rw [exactAfter, widthAt, if_pos ⟨rfl, h⟩, Nat.mul_add, Nat.mul_one]
  omega

/-- Without tabs every character takes one column. -/
theorem exactFrom_of_no_tab (tabSize column : Nat) {cs : List Char} (h : '\t' ∉ cs) :
    exactFrom tabSize column cs = column + cs.length := by
  induction cs generalizing column with
  | nil => rfl
  | cons c cs ih =>
    obtain ⟨hc, hcs⟩ := List.ne_and_not_mem_of_not_mem_cons h
    have hafter : exactAfter tabSize column c = column + 1 :=
      congrArg (column + ·) (if_neg fun htab => hc htab.1.symm)
    calc exactFrom tabSize (exactAfter tabSize column c) cs
        = column + 1 + cs.length := by rw [hafter, ih _ hcs]
      _ = column + (cs.length + 1) := by omega

section

variable {tabSize k : Nat} (htab : tabSize = 0 ∨ tabSize ∣ k)

include htab

theorem exactAfter_add (column : Nat) (c : Char) :
    exactAfter tabSize (column + k) c = exactAfter tabSize column c + k := by
  unfold exactAfter widthAt
  split
  · rename_i h
    rcases htab with hzero | ⟨q, rfl⟩
    · omega
    · rw [Nat.add_mul_mod_self_left]
      omega
  · omega

/-- A text that is moved by some tabs is as wide as it was. -/
theorem exactFrom_add (column : Nat) (cs : List Char) :
    exactFrom tabSize (column + k) cs = exactFrom tabSize column cs + k := by
  induction cs generalizing column with
  | nil => rfl
  | cons c cs ih =>
    simp only [exactFrom, List.foldl_cons] at ih ⊢
    rw [exactAfter_add htab, ih]

end

/-- At a tab stop, and anywhere without tabs, a text is as wide as at the start of a line. -/
theorem exactFrom_eq_add {tabSize column : Nat} {cs : List Char} (h : tabSize ∣ column ∨ '\t' ∉ cs) :
    exactFrom tabSize column cs = column + exactFrom tabSize 0 cs := by
  rcases h with hstop | hnone
  · rw [Nat.add_comm, ← exactFrom_add (.inr hstop), Nat.zero_add]
  · rw [exactFrom_of_no_tab _ _ hnone, exactFrom_of_no_tab _ _ hnone, Nat.zero_add]

/-! ## Columns that fit -/

/-- The columns of a text that starts at column `column` are numbers of 64 bits, up to its end. -/
def FitsFrom (tabSize column : Nat) (cs : List Char) : Prop := exactFrom tabSize column cs < UInt64.size

instance (tabSize column : Nat) (cs : List Char) : Decidable (FitsFrom tabSize column cs) :=
  inferInstanceAs (Decidable (exactFrom tabSize column cs < UInt64.size))

namespace FitsFrom

variable {tabSize column : Nat} {cs ds : List Char}

theorem left (h : FitsFrom tabSize column (cs ++ ds)) : FitsFrom tabSize column cs := by
  unfold FitsFrom at h ⊢
  rw [exactFrom_append] at h
  exact Nat.lt_of_le_of_lt (le_exactFrom tabSize _ ds) h

/-- As long as the columns fit, counting them needs no bound. -/
theorem columnFrom_eq (h : FitsFrom tabSize column cs) :
    columnFrom tabSize column cs = exactFrom tabSize column cs := by
  induction cs generalizing column with
  | nil => rfl
  | cons c cs ih =>
    have hcons : FitsFrom tabSize column ([c] ++ cs) := h
    have hfirst : exactAfter tabSize column c < UInt64.size := hcons.left
    have hafter : columnAfter tabSize column c = exactAfter tabSize column c := Nat.mod_eq_of_lt hfirst
    show columnFrom tabSize (columnAfter tabSize column c) cs =
      exactFrom tabSize (exactAfter tabSize column c) cs
    rw [hafter]
    exact ih h

theorem columnWidth_eq (h : FitsFrom tabSize 0 cs) : columnWidth tabSize cs = exactFrom tabSize 0 cs :=
  h.columnFrom_eq

end FitsFrom

theorem columnFrom_replicate_space (tabSize : Nat) {column n : Nat} (h : column + n < UInt64.size) :
    columnFrom tabSize column (List.replicate n ' ') = column + n := by
  have hnone : '\t' ∉ List.replicate n ' ' := fun h => absurd (List.eq_of_mem_replicate h) (by decide)
  have hexact : exactFrom tabSize column (List.replicate n ' ') = column + n := by
    rw [exactFrom_of_no_tab _ _ hnone, List.length_replicate]
  have hfits : FitsFrom tabSize column (List.replicate n ' ') := Nat.lt_of_le_of_lt (Nat.le_of_eq hexact) h
  rw [hfits.columnFrom_eq, hexact]

/-- From one column to another there is a space for each column between them. -/
theorem columnFrom_replicate_sub (tabSize : Nat) {column stop : Nat} (h : column ≤ stop)
    (hstop : stop < UInt64.size) :
    columnFrom tabSize column (List.replicate (stop - column) ' ') = stop := by
  have hsum : column + (stop - column) = stop := Nat.add_sub_cancel' h
  rw [columnFrom_replicate_space tabSize (by omega), hsum]

/-- A text moved by spaces that are as wide as some tabs is as wide as it was, if it fits there. -/
theorem columnWidth_replicate_append {tabSize k : Nat} (htab : tabSize = 0 ∨ tabSize ∣ k) {cs : List Char}
    (h : FitsFrom tabSize k cs) :
    columnWidth tabSize (List.replicate k ' ' ++ cs) = columnWidth tabSize cs + k := by
  have hadd := exactFrom_add htab 0 cs
  rw [Nat.zero_add] at hadd
  have hk : 0 + k < UInt64.size := by
    rw [Nat.zero_add]
    exact Nat.lt_of_le_of_lt (le_exactFrom tabSize k cs) h
  have hfits : FitsFrom tabSize 0 cs := by
    unfold FitsFrom at h ⊢
    omega
  rw [hfits.columnWidth_eq, ← hadd, columnWidth, columnFrom_append, columnFrom_replicate_space tabSize hk,
    Nat.zero_add, h.columnFrom_eq]

/-! ## Boundaries -/

/-- The offset lies between two characters of the text, or at one of its ends. -/
def IsBoundary (cs : List Char) (offset : Nat) : Prop :=
  ∃ before after, cs = before ++ after ∧ offset = byteLength before

/-- The columns of a text are numbers of 64 bits, up to an offset. -/
def FitsTo (tabSize : Nat) (cs : List Char) (offset : Nat) : Prop :=
  FitsFrom tabSize 0 (charsBefore cs offset)

instance (tabSize : Nat) (cs : List Char) (offset : Nat) : Decidable (FitsTo tabSize cs offset) :=
  inferInstanceAs (Decidable (FitsFrom tabSize 0 (charsBefore cs offset)))

theorem fitsTo_byteLength {tabSize : Nat} {cs ds : List Char} :
    FitsTo tabSize (cs ++ ds) (byteLength cs) ↔ FitsFrom tabSize 0 cs := by
  rw [FitsTo, charsBefore_byteLength]

/-- As long as they fit, columns grow strictly from one boundary to the next. -/
theorem columnAt_lt_columnAt {tabSize : Nat} {cs : List Char} {i j : Nat} (hi : IsBoundary cs i)
    (hj : IsBoundary cs j) (h : i < j) (hfits : FitsTo tabSize cs j) :
    columnAt tabSize cs i < columnAt tabSize cs j := by
  obtain ⟨before, after, rfl, rfl⟩ := hi
  obtain ⟨before', after', hcs, rfl⟩ := hj
  rw [hcs, fitsTo_byteLength] at hfits
  rw [columnAt_byteLength, hcs, columnAt_byteLength]
  rcases List.append_eq_append_iff.1 hcs with ⟨more, rfl, -⟩ | ⟨more, rfl, -⟩
  · have hmore : more ≠ [] := by
      rintro rfl
      rw [List.append_nil] at h
      exact Nat.lt_irrefl _ h
    rw [hfits.columnWidth_eq, hfits.left.columnWidth_eq, exactFrom_append]
    exact lt_exactFrom tabSize _ hmore
  · rw [byteLength_append] at h
    omega

/-- Directly behind a tab is a tab stop, if its column fits. -/
theorem dvd_columnAt_tab {tabSize : Nat} (h : 0 < tabSize) {before after : List Char}
    (hfits : FitsTo tabSize (before ++ '\t' :: after) (byteLength before + 1)) :
    tabSize ∣ columnAt tabSize (before ++ '\t' :: after) (byteLength before + 1) := by
  have hline : before ++ '\t' :: after = (before ++ ['\t']) ++ after := by simp
  have hoffset : byteLength before + 1 = byteLength (before ++ ['\t']) := by
    rw [byteLength_append]
    rfl
  rw [hline, hoffset, fitsTo_byteLength] at hfits
  rw [hline, hoffset, columnAt_byteLength, hfits.columnWidth_eq, exactFrom_append]
  exact dvd_exactAfter_tab h _

/-- Columns behind a text add up, where the text ends at a tab stop or no tab follows, and the sum fits. -/
theorem columnAt_append {tabSize : Nat} {cs ds : List Char} {offset : Nat} (hoffset : IsBoundary ds offset)
    (h : tabSize ∣ columnAt tabSize cs (byteLength cs) ∨ '\t' ∉ ds)
    (hfits : FitsTo tabSize (cs ++ ds) (byteLength cs + offset)) :
    columnAt tabSize (cs ++ ds) (byteLength cs + offset) =
      columnAt tabSize cs (byteLength cs) + columnAt tabSize ds offset := by
  obtain ⟨before, after, rfl, rfl⟩ := hoffset
  have hend : columnAt tabSize cs (byteLength cs) = columnWidth tabSize cs := by
    simpa using columnAt_byteLength tabSize cs []
  rw [← List.append_assoc, ← byteLength_append] at hfits ⊢
  rw [fitsTo_byteLength] at hfits
  rw [hend, hfits.left.columnWidth_eq] at h ⊢
  have hadd : exactFrom tabSize 0 (cs ++ before) = exactFrom tabSize 0 cs + exactFrom tabSize 0 before := by
    rw [exactFrom_append]
    exact exactFrom_eq_add (h.imp_right fun hnone hmem => hnone (List.mem_append_left after hmem))
  have hbefore : FitsFrom tabSize 0 before := by
    unfold FitsFrom at hfits ⊢
    omega
  rw [columnAt_byteLength, columnAt_byteLength, hfits.columnWidth_eq, hbefore.columnWidth_eq, hadd]

end ShaderText
