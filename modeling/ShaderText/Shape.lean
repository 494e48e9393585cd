/-
The shapes of lexemes in code. Each shape tells the length of its longest match at the start of a
text, 0 for none; of all shapes the longest match wins, and the first of equally long ones. Text
that no shape matches is left to the caller.

A match is never longer than the text, and no shape matches longer than the winner.
-/

namespace ShaderText

/-! ## Character classes -/

/-- The ASCII letters and digits, `_` and `$`. -/
def isWordChar (c : Char) : Bool := c.isAlphanum || c == '_' || c == '$'

/-- The characters that a word starts with. -/
def isWordStart (c : Char) : Bool := c.isAlpha || c == '_' || c == '$'

/-- The characters that go on a number. Nothing about its digits is checked. -/
def isNumberChar (c : Char) : Bool := c.isAlphanum || c == '_' || c == '.'

def isOperatorChar (c : Char) : Bool :=
  ['+', '-', '*', '&', '%', '=', '<', '>', '!', '?', '|', '/'].contains c

/-- The characters that make a slash part of a longer operator and not of a comment. -/
def isAfterSlash (c : Char) : Bool := isOperatorChar c && c != '*' && c != '/'

def isPunctuation (c : Char) : Bool :=
  ['[', ']', '\x7b', '\x7d', '(', ')', ',', ';', ':', '.'].contains c

def isQuote (c : Char) : Bool := c == '"' || c == '\x27'

/-! ## Shapes -/

/-- The shapes of lexemes. -/
inductive Shape
  | quote
  | punctuation
  | number
  | blockComment
  | lineComment
  | operator
  | word
  deriving DecidableEq, Repr, Inhabited

/-- The length of the run that starts with a character in `first` and goes on in `next`. -/
def runLength (first next : Char → Bool) : List Char → Nat
  | [] => 0
  | c :: cs => if first c then (cs.takeWhile next).length + 1 else 0

/-- The length of the operator at the start of a text. A slash goes on only with a character that
cannot open a comment behind it. -/
def operatorLength : List Char → Nat
  | [] => 0
  | c :: cs =>
    if c = '/' then runLength isAfterSlash isOperatorChar cs + 1
    else runLength isOperatorChar isOperatorChar (c :: cs)

/-- The length of `opener` if the text starts with it. -/
def openerLength (opener cs : List Char) : Nat :=
  if opener.isPrefixOf cs then opener.length else 0

namespace Shape

def all : List Shape := [quote, punctuation, number, blockComment, lineComment, operator, word]

/-- The length of the longest match of a shape at the start of a text. -/
def matchLength (cs : List Char) : Shape → Nat
  | quote => runLength isQuote (fun _ => false) cs
  | punctuation => runLength isPunctuation (fun _ => false) cs
  | number => runLength Char.isDigit isNumberChar cs
  | blockComment => openerLength ['/', '*'] cs
  | lineComment => openerLength ['/', '/'] cs
  | operator => operatorLength cs
  | word => runLength isWordStart isWordChar cs

/-- Of some shapes, the first with the longest match, and the length of that match. -/
def longestOf (cs : List Char) : List Shape → Option (Shape × Nat)
  | [] => none
  | s :: ss =>
    let n := s.matchLength cs
    match longestOf cs ss with
    | none => if n = 0 then none else some (s, n)
    | some (t, m) => if m ≤ n then some (s, n) else some (t, m)

/-- The shape that wins at the start of a text, and the length of its match. -/
def longest (cs : List Char) : Option (Shape × Nat) := longestOf cs all

end Shape

/-! ## Lengths -/

theorem runLength_le (first next : Char → Bool) (cs : List Char) :
    runLength first next cs ≤ cs.length := by
  cases cs with
  | nil => exact Nat.le_refl 0
  | cons c cs =>
    have h := (List.takeWhile_sublist next : (cs.takeWhile next).Sublist cs).length_le
    simp only [runLength]
    split
    · exact Nat.succ_le_succ h
    · exact Nat.zero_le _

theorem operatorLength_le (cs : List Char) : operatorLength cs ≤ cs.length := by
  cases cs with
  | nil => exact Nat.le_refl 0
  | cons c cs =>
    simp only [operatorLength]
    split
    · exact Nat.succ_le_succ (runLength_le _ _ cs)
    · exact runLength_le _ _ (c :: cs)

theorem openerLength_le (opener cs : List Char) : openerLength opener cs ≤ cs.length := by
  unfold openerLength
  split
  · exact (List.isPrefixOf_iff_prefix.1 ‹_›).length_le
  · exact Nat.zero_le _

namespace Shape

theorem matchLength_le (cs : List Char) (s : Shape) : s.matchLength cs ≤ cs.length := by
  cases s
  · exact runLength_le _ _ cs
  · exact runLength_le _ _ cs
  · exact runLength_le _ _ cs
  · exact openerLength_le _ cs
  · exact openerLength_le _ cs
  · exact operatorLength_le cs
  · exact runLength_le _ _ cs

/-- Where no shape wins, none matches. -/
theorem matchLength_of_longestOf_eq_none {cs : List Char} {ss : List Shape}
    (h : longestOf cs ss = none) : ∀ t ∈ ss, t.matchLength cs = 0 := by
  induction ss with
  | nil => intro t ht; cases ht
  | cons u us ih =>
    simp only [longestOf] at h
    split at h
    · rename_i hnone
      split at h
      · intro t ht
        rcases List.mem_cons.1 ht with rfl | ht
        · assumption
        · exact ih hnone t ht
      · cases h
    · split at h <;> cases h

/-- The winner is one of the shapes, it matches, and no other shape matches longer. -/
theorem longestOf_eq_some {cs : List Char} {ss : List Shape} {s : Shape} {n : Nat}
    (h : longestOf cs ss = some (s, n)) :
    s ∈ ss ∧ n = s.matchLength cs ∧ 0 < n ∧ ∀ t ∈ ss, t.matchLength cs ≤ n := by
  induction ss generalizing s n with
  | nil => cases h
  | cons u us ih =>
    simp only [longestOf] at h
    split at h
    · rename_i hnone
      split at h
      · cases h
      · cases h
        refine ⟨List.mem_cons_self .., rfl, by omega, fun t ht => ?_⟩
        rcases List.mem_cons.1 ht with rfl | ht
        · exact Nat.le_refl _
        · have := matchLength_of_longestOf_eq_none hnone t ht
          omega
    · rename_i v m hv
      obtain ⟨hmem, hm, hpos, hmax⟩ := ih hv
      split at h
      · cases h
        refine ⟨List.mem_cons_self .., rfl, by omega, fun t ht => ?_⟩
        rcases List.mem_cons.1 ht with rfl | ht
        · exact Nat.le_refl _
        · exact Nat.le_trans (hmax t ht) ‹_›
      · cases h
        refine ⟨List.mem_cons_of_mem _ hmem, hm, hpos, fun t ht => ?_⟩
        rcases List.mem_cons.1 ht with rfl | ht
        · omega
        · exact hmax t ht

end Shape

end ShaderText
