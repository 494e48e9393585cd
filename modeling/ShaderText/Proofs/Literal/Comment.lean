/-
Where a block comment ends. The scan looks back at one character only, and yet it stops behind the first
closer in its text, an asterisk and a slash next to each other; without a closer it takes the whole text.
-/
import Mathlib.Data.List.Infix
import ShaderText.Mode

namespace ShaderText

/-! ## The first closer -/

/-- What closes a block comment. -/
def commentCloser : List Char := ['*', '/']

/-- The text ends in a closer, and it is the first in the text: in front of its slash there is none. -/
def EndsInCloser (text : List Char) : Prop :=
  ∃ body, text = body ++ commentCloser ∧ ¬ commentCloser <:+: body ++ ['*']

/-- A text that holds a closer has a first one. -/
theorem exists_endsInCloser {cs : List Char} (h : commentCloser <:+: cs) :
    ∃ text back, cs = text ++ back ∧ EndsInCloser text := by
  obtain ⟨front, back, rfl⟩ := h
  -- by the length of what lies in front: an earlier closer has less in front of it
  induction hlen : front.length using Nat.strongRecOn generalizing front back with
  | ind len ih =>
    by_cases hearlier : commentCloser <:+: front ++ ['*']
    · obtain ⟨front', back', heq⟩ := hearlier
      have hlt : front'.length < len := by
        have := congrArg List.length heq
        simp only [commentCloser, List.length_append, List.length_cons, List.length_nil] at this
        omega
      obtain ⟨text, rest, hsplit, hends⟩ := ih _ hlt front' (back' ++ '/' :: back) rfl
      refine ⟨text, rest, ?_, hends⟩
      rw [← hsplit, ← List.append_assoc, heq]
      simp [commentCloser]
    · exact ⟨front ++ commentCloser, back, rfl, front, rfl, hearlier⟩

/-! ## The scan -/

/-- The character that the scan looks back at, if it is an asterisk. -/
def lookback (star : Bool) : List Char := if star then ['*'] else []

/-- What the scan goes on with is the end of what it had. -/
theorem lookback_suffix (star : Bool) (c : Char) (cs : List Char) :
    lookback (c == '*') ++ cs <:+ lookback star ++ c :: cs := by
  by_cases hc : c = '*'
  · subst hc
    exact List.suffix_append (lookback star) ('*' :: cs)
  · have hnone : lookback (c == '*') = [] := by simp [lookback, hc]
    rw [hnone, List.nil_append]
    exact ⟨lookback star ++ [c], by simp⟩

theorem open_lookback {star : Bool} {c : Char} {cs : List Char}
    (h : ¬ commentCloser <:+: lookback star ++ c :: cs) :
    ¬ commentCloser <:+: lookback (c == '*') ++ cs :=
  fun hin => h (hin.trans (lookback_suffix star c cs).isInfix)

/-- Where there is no closer, a character is not the slash of one. -/
theorem not_slash_of_open {star : Bool} {c : Char} {cs : List Char}
    (h : ¬ commentCloser <:+: lookback star ++ c :: cs) : ¬(c = '/' ∧ star = true) := by
  rintro ⟨rfl, rfl⟩
  exact h ⟨[], cs, rfl⟩

theorem scanComment_of_open {star : Bool} {cs : List Char}
    (h : ¬ commentCloser <:+: lookback star ++ cs) : scanComment star cs = ⟨cs.length, false⟩ := by
  induction cs generalizing star with
  | nil => rfl
  | cons c cs ih =>
    rw [scanComment, if_neg (not_slash_of_open h), ih (open_lookback h)]
    rfl

theorem scanComment_of_first {star : Bool} {body : List Char}
    (h : ¬ commentCloser <:+: lookback star ++ (body ++ ['*'])) (more : List Char) :
    scanComment star (body ++ '*' :: '/' :: more) = ⟨body.length + 2, true⟩ := by
  induction body generalizing star with
  | nil => simp [scanComment]
  | cons c body ih =>
    rw [List.cons_append, scanComment, if_neg (not_slash_of_open h), ih (open_lookback h)]
    rfl

/-! ## The lexeme -/

namespace Lexeme

/-- Without a closer a comment takes the whole text and goes on. -/
theorem comment_of_no_closer (opened : Nat) {cs : List Char} (h : ¬ commentCloser <:+: cs) :
    Lexeme.comment opened cs = ⟨.comment, none, opened + cs.length, .comment⟩ := by
  have hscan : scanComment false cs = ⟨cs.length, false⟩ := scanComment_of_open h
  rw [Lexeme.comment, hscan]
  rfl

/-- A comment ends behind the first closer. -/
theorem comment_of_endsInCloser (opened : Nat) {text : List Char} (h : EndsInCloser text)
    (more : List Char) :
    Lexeme.comment opened (text ++ more) = ⟨.comment, none, opened + text.length, .code⟩ := by
  obtain ⟨body, rfl, hfirst⟩ := h
  have hscan : scanComment false (body ++ '*' :: '/' :: more) = ⟨body.length + 2, true⟩ :=
    scanComment_of_first hfirst more
  rw [Lexeme.comment, List.append_assoc, commentCloser, List.cons_append, List.cons_append,
    List.nil_append, hscan, List.length_append]
  rfl

end Lexeme

end ShaderText
