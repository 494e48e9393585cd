/-
The words of a text. A word has no blank in it, in front of it is a blank or the start of the text, and
behind it a blank or the end; and every such part of the text is a word.
-/
import Mathlib.Data.List.Basic
import ShaderText.WordSet

namespace ShaderText

/-- The word stands in the text, as long as it can be. -/
structure IsWordOf (word cs : List Char) : Prop where
  ne_nil : word ≠ []
  ink : ∀ c ∈ word, isBlank c = false
  parts : ∃ before after, cs = before ++ word ++ after ∧ (∀ c ∈ before.getLast?, isBlank c = true) ∧
    ∀ c ∈ after.head?, isBlank c = true

variable {word w cs : List Char} {c : Char}

/-- Behind a blank the words are the same. -/
theorem IsWordOf.behind (h : IsWordOf w cs) (hc : isBlank c = true) (front : List Char) :
    IsWordOf w (front ++ c :: cs) := by
  obtain ⟨before, after, rfl, hbefore, hafter⟩ := h.parts
  refine ⟨h.ne_nil, h.ink, front ++ c :: before, after, by simp, ?_, hafter⟩
  intro d hd
  cases before with
  | nil =>
    rw [List.getLast?_concat] at hd
    obtain rfl := Option.some.inj hd
    exact hc
  | cons e before =>
    rw [List.getLast?_append, List.getLast?_cons_cons] at hd
    exact hbefore d (by simpa using hd)

/-- A text without blanks is a word up to the next blank. -/
theorem isWordOf_front (hne : w ≠ []) (hw : ∀ d ∈ w, isBlank d = false)
    (hcs : ∀ d ∈ cs.head?, isBlank d = true) : IsWordOf w (w ++ cs) :=
  ⟨hne, hw, [], cs, rfl, by simp, hcs⟩

/-- What is found as a word is one. -/
theorem isWordOf_of_mem_wordsFrom (hword : ∀ d ∈ word, isBlank d = false) (h : w ∈ wordsFrom word cs) :
    IsWordOf w (word ++ cs) := by
  induction cs generalizing word with
  | nil =>
    rw [wordsFrom] at h
    split_ifs at h with hempty
    · cases h
    · obtain rfl := List.mem_singleton.1 h
      exact isWordOf_front (by simpa using hempty) hword (by simp)
  | cons c cs ih =>
    rw [wordsFrom] at h
    split_ifs at h with hc hempty
    · exact (ih (by simp) h).behind hc word
    · rcases List.mem_cons.1 h with rfl | hlater
      · exact isWordOf_front (by simpa using hempty) hword (by simpa using hc)
      · exact (ih (by simp) hlater).behind hc word
    · have hwhole := ih (List.forall_mem_append.2 ⟨hword, by simpa using hc⟩) h
      rwa [List.append_assoc] at hwhole

/-- The words split at a blank. -/
theorem wordsFrom_append_blank (hc : isBlank c = true) (word cs ds : List Char) :
    wordsFrom word (cs ++ c :: ds) = wordsFrom word cs ++ blankSeparatedWords ds := by
  induction cs generalizing word with
  | nil =>
    simp only [List.nil_append, wordsFrom, if_pos hc]
    split_ifs <;> rfl
  | cons d cs ih =>
    rw [List.cons_append, wordsFrom, wordsFrom]
    split_ifs
    · exact ih []
    · rw [ih, List.cons_append]
    · exact ih _

/-- A text without blanks is one word. -/
theorem wordsFrom_of_ink (hne : word ++ cs ≠ []) (h : ∀ d ∈ cs, isBlank d = false) :
    wordsFrom word cs = [word ++ cs] := by
  induction cs generalizing word with
  | nil =>
    rw [List.append_nil] at hne ⊢
    rw [wordsFrom, if_neg (by simpa using hne)]
  | cons c cs ih =>
    obtain ⟨hc, hcs⟩ := List.forall_mem_cons.1 h
    rw [wordsFrom, if_neg (by simp [hc]), ih (by simp) hcs, List.append_assoc]
    rfl

/-- The words that blanks separate in a text are those that stand in it. -/
theorem mem_blankSeparatedWords_iff : w ∈ blankSeparatedWords cs ↔ IsWordOf w cs := by
  constructor
  · exact fun h => isWordOf_of_mem_wordsFrom (by simp) h
  · rintro ⟨hne, hink, before, after, rfl, hbefore, hafter⟩
    -- behind the word
    have hfront : w ∈ wordsFrom [] (w ++ after) := by
      have hone : wordsFrom [] w = [w] := wordsFrom_of_ink hne hink
      cases after with
      | nil => rw [List.append_nil, hone, List.mem_singleton]
      | cons c after =>
        rw [wordsFrom_append_blank (hafter c rfl), hone]
        exact List.mem_cons_self ..
    -- in front of it
    rw [blankSeparatedWords, List.append_assoc]
    rcases List.eq_nil_or_concat before with rfl | ⟨before, c, rfl⟩
    · exact hfront
    · have hc : isBlank c = true := hbefore c (by simp)
      rw [List.concat_eq_append, List.append_assoc, List.singleton_append, wordsFrom_append_blank hc]
      exact List.mem_append_right _ hfront

/-- A table that is read off a text has just the words of the text. -/
theorem WordSet.contains_ofText_iff (text : String) :
    (WordSet.ofText text).contains w = true ↔ IsWordOf w text.toList := by
  rw [ofText, contains_ofList, List.contains_iff_mem, mem_blankSeparatedWords_iff]

end ShaderText
