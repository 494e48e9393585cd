/-
Where a string ends. The scan toggles a flag at each backslash, and the flag says that the backslashes
behind which it stands are odd in number. So a string ends at the first of its quotation marks in front of
which the backslashes are even in number; and where there is none it takes the whole text.
-/
import Mathlib.Algebra.Ring.Parity
import Mathlib.Data.List.Induction
import ShaderText.Mode

namespace ShaderText

/-! ## Backslashes -/

/-- The number of backslashes in which a text ends. -/
def trailingBackslashes (cs : List Char) : Nat := (cs.reverse.takeWhile (· == '\\')).length

theorem trailingBackslashes_concat (cs : List Char) (c : Char) :
    trailingBackslashes (cs ++ [c]) = if c = '\\' then trailingBackslashes cs + 1 else 0 := by
  rw [trailingBackslashes, List.reverse_append, List.reverse_singleton, List.singleton_append,
    List.takeWhile_cons]
  by_cases hc : c = '\\'
  · simp [hc, trailingBackslashes]
  · simp [hc]

/-- What lies in front does not count if it ends in no backslash. -/
theorem trailingBackslashes_append {front : List Char} (h : trailingBackslashes front = 0) (cs : List Char) :
    trailingBackslashes (front ++ cs) = trailingBackslashes cs := by
  induction cs using List.reverseRecOn with
  | nil => rw [List.append_nil, h]; rfl
  | append_singleton cs c ih =>
    rw [← List.append_assoc, trailingBackslashes_concat, trailingBackslashes_concat, ih]

/-- Whether a character escapes the next one, as the scan toggles it. -/
theorem odd_trailingBackslashes_concat (cs : List Char) (c : Char) :
    decide (Odd (trailingBackslashes (cs ++ [c]))) =
      (!decide (Odd (trailingBackslashes cs)) && c == '\\') := by
  rw [trailingBackslashes_concat]
  by_cases hc : c = '\\'
  · simp only [hc, if_true, Nat.odd_add_one, decide_not, beq_self_eq_true, Bool.and_true]
  · simp [hc]

/-! ## The first quotation mark -/

/-- Behind `front` the text goes on with the quotation mark, and no backslash escapes it. -/
structure QuoteBehind (quote : Char) (cs front : List Char) : Prop where
  quoted : front ++ [quote] <+: cs
  unescaped : Even (trailingBackslashes front)

section

variable {quote : Char} {cs front back : List Char}

/-- Where each quotation mark is escaped, the scan takes the whole text. -/
theorem scanString_of_escaped (read : List Char)
    (h : ∀ front, front ++ [quote] <+: cs → Odd (trailingBackslashes (read ++ front))) :
    scanString quote (decide (Odd (trailingBackslashes read))) cs =
      ⟨cs.length, false, decide (Odd (trailingBackslashes (read ++ cs)))⟩ := by
  induction cs generalizing read with
  | nil => rw [List.append_nil]; rfl
  | cons c cs ih =>
    have hopen : ¬(c = quote ∧ decide (Odd (trailingBackslashes read)) = false) := by
      rintro ⟨rfl, heven⟩
      have hodd := h [] ⟨cs, rfl⟩
      rw [List.append_nil] at hodd
      exact of_decide_eq_false heven hodd
    have hnext := ih (read ++ [c]) fun front hfront => by
      rw [List.append_assoc]
      exact h (c :: front) (List.cons_prefix_cons.2 ⟨rfl, hfront⟩)
    rw [scanString, if_neg hopen, ← odd_trailingBackslashes_concat, hnext, List.append_assoc]
    rfl

/-- Where each quotation mark but the last is escaped, the scan ends at the last. -/
theorem scanString_of_first (read : List Char) (heven : Even (trailingBackslashes (read ++ front)))
    (h : ∀ front', front' ++ [quote] <+: front → Odd (trailingBackslashes (read ++ front'))) :
    scanString quote (decide (Odd (trailingBackslashes read))) (front ++ quote :: back) =
      ⟨front.length + 1, true, false⟩ := by
  induction front generalizing read with
  | nil =>
    rw [List.append_nil, ← Nat.not_odd_iff_even] at heven
    rw [List.nil_append, scanString, if_pos ⟨rfl, decide_eq_false heven⟩]
    rfl
  | cons c front ih =>
    have hopen : ¬(c = quote ∧ decide (Odd (trailingBackslashes read)) = false) := by
      rintro ⟨rfl, heven'⟩
      have hodd := h [] ⟨front, rfl⟩
      rw [List.append_nil] at hodd
      exact of_decide_eq_false heven' hodd
    have hnext := ih (read ++ [c]) (by rwa [List.append_assoc]) fun front' hfront' => by
      rw [List.append_assoc]
      exact h (c :: front') (List.cons_prefix_cons.2 ⟨rfl, hfront'⟩)
    rw [List.cons_append, scanString, if_neg hopen, ← odd_trailingBackslashes_concat, hnext]
    rfl

/-- A string that is closed ends in its own quotation mark. -/
theorem exists_quote_of_closed {escaped : Bool} (h : (scanString quote escaped cs).closed = true) :
    ∃ front back, cs = front ++ quote :: back ∧
      (scanString quote escaped cs).length = front.length + 1 := by
  induction cs generalizing escaped with
  | nil => cases h
  | cons c cs ih =>
    rw [scanString] at h ⊢
    by_cases hend : c = quote ∧ escaped = false
    · rw [if_pos hend]
      exact ⟨[], cs, by rw [hend.1]; rfl, rfl⟩
    · rw [if_neg hend] at h ⊢
      obtain ⟨front, back, hcs, hlength⟩ := ih h
      exact ⟨c :: front, back, by rw [hcs]; rfl, congrArg Nat.succ hlength⟩

end

/-! ## The lexeme -/

namespace Lexeme

/-- Behind the first quotation mark that no backslash escapes is code. -/
theorem string_of_first (multiLine : Bool) {quote : Char} (opened : Nat) {cs front : List Char}
    (h : QuoteBehind quote cs front)
    (hfirst : ∀ front', QuoteBehind quote cs front' → front.length ≤ front'.length) :
    Lexeme.string multiLine quote opened cs = ⟨.string, none, opened + (front.length + 1), .code⟩ := by
  obtain ⟨⟨back, rfl⟩, heven⟩ := h
  have hearlier : ∀ front', front' ++ [quote] <+: front → Odd (trailingBackslashes front') := by
    intro front' hquoted
    by_contra hodd
    have hle := hfirst front' ⟨(hquoted.trans (List.prefix_append front _)).trans
      (List.prefix_append _ back), Nat.not_odd_iff_even.1 hodd⟩
    have hlt := hquoted.length_le
    rw [List.length_append, List.length_singleton] at hlt
    omega
  have hscan : scanString quote false (front ++ quote :: back) = ⟨front.length + 1, true, false⟩ :=
    scanString_of_first [] heven hearlier
  rw [Lexeme.string, List.append_assoc, List.singleton_append, hscan]
  rfl

/-- Without such a quotation mark a string takes the whole text, and it goes on behind it if strings may
span lines or a backslash escapes the end of the line. -/
theorem string_of_no_quote (multiLine : Bool) {quote : Char} (opened : Nat) {cs : List Char}
    (h : ∀ front, ¬ QuoteBehind quote cs front) :
    Lexeme.string multiLine quote opened cs = ⟨.string, none, opened + cs.length,
      if multiLine = true ∨ Odd (trailingBackslashes cs) then .string quote else .code⟩ := by
  have hescaped : ∀ front, front ++ [quote] <+: cs → Odd (trailingBackslashes front) :=
    fun front hquoted => Nat.not_even_iff_odd.1 fun heven => h front ⟨hquoted, heven⟩
  have hscan : scanString quote false cs = ⟨cs.length, false, decide (Odd (trailingBackslashes cs))⟩ :=
    scanString_of_escaped [] hescaped
  rw [Lexeme.string, hscan]
  simp [or_comm]

/-- A string ends at the first of its quotation marks that no backslash escapes, which is one with an even
number of backslashes in front of it in what this lexeme reads; behind it is code. If there is none the
string takes the whole text, and it goes on in the next line just if strings may span lines or an odd number
of backslashes comes last. No other character ends a string: where one is the last that the string takes, the
line ends behind it, and the string goes on in the next line if strings may span lines. -/
theorem string_closes (multiLine : Bool) (quote : Char) (opened : Nat) (cs : List Char) :
    (∀ front, QuoteBehind quote cs front →
      (∀ front', QuoteBehind quote cs front' → front.length ≤ front'.length) →
      Lexeme.string multiLine quote opened cs = ⟨.string, none, opened + (front.length + 1), .code⟩) ∧
    ((∀ front, ¬ QuoteBehind quote cs front) →
      Lexeme.string multiLine quote opened cs = ⟨.string, none, opened + cs.length,
        if multiLine = true ∨ Odd (trailingBackslashes cs) then .string quote else .code⟩) ∧
    ∀ (front back : List Char) (other : Char), other ≠ quote → cs = front ++ other :: back →
      (Lexeme.string multiLine quote opened cs).length = opened + (front.length + 1) →
      back = [] ∧ (multiLine = true → (Lexeme.string multiLine quote opened cs).region = .string quote) := by
  refine ⟨fun front h hfirst => string_of_first multiLine opened h hfirst,
    fun h => string_of_no_quote multiLine opened h, ?_⟩
  intro front back other hother hcs hlength
  have hread : (scanString quote false cs).length = front.length + 1 := Nat.add_left_cancel hlength
  cases hclosed : (scanString quote false cs).closed with
  | true =>
    obtain ⟨front', back', hcs', hread'⟩ := exists_quote_of_closed hclosed
    have hfront : front = front' ∧ other :: back = quote :: back' :=
      List.append_inj (hcs.symm.trans hcs') (by omega)
    exact absurd (List.cons.inj hfront.2).1 hother
  | false =>
    have hall := length_scanString_of_not_closed hclosed
    rw [hread, hcs, List.length_append, List.length_cons] at hall
    refine ⟨List.length_eq_zero_iff.1 (by omega), ?_⟩
    rintro rfl
    simp [Lexeme.string, hclosed]

-- an escaped backslash, an escaped quotation mark, and a quotation mark of the other kind
example : Lexeme.string false '"' 0 ['\\', '\\', '\\', '"', '\x27', '"', ';'] = ⟨.string, none, 6, .code⟩ := by
  decide

end Lexeme

end ShaderText
