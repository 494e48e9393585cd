/-
White space, as the Unicode property White_Space has it: the test on one character, the leading
blanks of a text and what remains after them, and the words that blanks separate.

Leading blanks and the rest put together are the text, the rest starts with no blank, and no word
holds a blank or is empty.
-/

namespace ShaderText

/-- A character with the Unicode property White_Space. -/
def isBlank (c : Char) : Bool :=
  let n := c.toNat
  (0x9 ≤ n && n ≤ 0xD) || n == 0x20 || n == 0x85 || n == 0xA0 || n == 0x1680 ||
    (0x2000 ≤ n && n ≤ 0x200A) || n == 0x2028 || n == 0x2029 || n == 0x202F || n == 0x205F ||
    n == 0x3000

/-- The blanks that a text starts with. -/
def leadingBlanks (cs : List Char) : List Char := cs.takeWhile isBlank

/-- A text without its leading blanks. -/
def trimLeading (cs : List Char) : List Char := cs.dropWhile isBlank

/-! ## Leading blanks -/

theorem leadingBlanks_append_trimLeading (cs : List Char) :
    leadingBlanks cs ++ trimLeading cs = cs :=
  List.takeWhile_append_dropWhile

theorem isBlank_of_mem_leadingBlanks {cs : List Char} {c : Char} (h : c ∈ leadingBlanks cs) :
    isBlank c = true :=
  List.all_eq_true.1 List.all_takeWhile c h

theorem trimLeading_of_not_isBlank {c : Char} (cs : List Char) (h : isBlank c = false) :
    trimLeading (c :: cs) = c :: cs := by
  simp [trimLeading, h]

theorem trimLeading_of_isBlank {c : Char} (cs : List Char) (h : isBlank c = true) :
    trimLeading (c :: cs) = trimLeading cs := by
  simp [trimLeading, h]

theorem not_isBlank_of_trimLeading_eq_cons {cs rest : List Char} {c : Char}
    (h : trimLeading cs = c :: rest) : isBlank c = false := by
  induction cs with
  | nil => cases h
  | cons d ds ih =>
    cases hd : isBlank d with
    | true => exact ih (by rwa [trimLeading_of_isBlank ds hd] at h)
    | false =>
      rw [trimLeading_of_not_isBlank ds hd] at h
      cases h; exact hd

theorem isBlank_of_isWhitespace {c : Char} (h : c.isWhitespace = true) : isBlank c = true := by
  simp only [Char.isWhitespace, Bool.or_eq_true, decide_eq_true_eq] at h
  rcases h with ((rfl | rfl) | rfl) | rfl <;> decide

/-! ## Words -/

/-- The words of a text whose current word, read so far, is `word`. -/
def wordsFrom (word : List Char) : List Char → List (List Char)
  | [] => if word.isEmpty then [] else [word]
  | c :: cs =>
    if isBlank c then
      if word.isEmpty then wordsFrom [] cs else word :: wordsFrom [] cs
    else wordsFrom (word ++ [c]) cs

/-- The maximal runs of characters that are no blanks, in order. -/
def blankSeparatedWords (cs : List Char) : List (List Char) := wordsFrom [] cs

theorem mem_wordsFrom {cs word w : List Char} (hw : ∀ c ∈ word, isBlank c = false)
    (h : w ∈ wordsFrom word cs) : w ≠ [] ∧ ∀ c ∈ w, isBlank c = false := by
  induction cs generalizing word with
  | nil =>
    cases word with
    | nil => simp [wordsFrom] at h
    | cons d ds =>
      simp only [wordsFrom, List.isEmpty_cons, Bool.false_eq_true, if_false,
        List.mem_singleton] at h
      subst h; exact ⟨by simp, hw⟩
  | cons c cs ih =>
    cases hc : isBlank c with
    | true =>
      cases word with
      | nil =>
        simp only [wordsFrom, hc, if_true, List.isEmpty_nil] at h
        exact ih (by simp) h
      | cons d ds =>
        simp only [wordsFrom, hc, if_true, List.isEmpty_cons, Bool.false_eq_true, if_false,
          List.mem_cons] at h
        rcases h with rfl | h
        · exact ⟨by simp, hw⟩
        · exact ih (by simp) h
    | false =>
      simp only [wordsFrom, hc, Bool.false_eq_true, if_false] at h
      refine ih (fun d hd => ?_) h
      rcases List.mem_append.1 hd with hd | hd
      · exact hw d hd
      · rw [List.mem_singleton.1 hd]; exact hc

/-- A word is not empty and holds no blank. -/
theorem mem_blankSeparatedWords {cs w : List Char} (h : w ∈ blankSeparatedWords cs) :
    w ≠ [] ∧ ∀ c ∈ w, isBlank c = false :=
  mem_wordsFrom (by simp) h

end ShaderText
