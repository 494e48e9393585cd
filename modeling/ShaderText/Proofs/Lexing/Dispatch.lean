/-
What comes next in code. The texts of the shapes are disjoint, and which shape a text has is told by its
first two characters. So the longest match over all shapes is found by looking at the characters in a fixed
order, the first that fits; and what no shape matches is read like a word.
-/
import ShaderText.Proofs.Lexing.Lexeme

namespace ShaderText

/-! ## The texts of a shape -/

/-- The texts that have a shape. -/
inductive Shape.Matches : Shape → List Char → Prop
  | quote {c : Char} : isQuote c = true → Matches quote [c]
  | punctuation {c : Char} : isPunctuation c = true → Matches punctuation [c]
  | number {c : Char} {cs : List Char} : c.isDigit = true → (∀ d ∈ cs, isNumberChar d = true) →
      Matches number (c :: cs)
  | blockComment : Matches blockComment ['/', '*']
  | lineComment : Matches lineComment ['/', '/']
  | operator {c : Char} {cs : List Char} : isOperatorChar c = true → c ≠ '/' →
      (∀ d ∈ cs, isOperatorChar d = true) → Matches operator (c :: cs)
  | slash : Matches operator ['/']
  | slashOperator {c : Char} {cs : List Char} : isAfterSlash c = true →
      (∀ d ∈ cs, isOperatorChar d = true) → Matches operator ('/' :: c :: cs)
  | word {c : Char} {cs : List Char} : isWordStart c = true → (∀ d ∈ cs, isWordChar d = true) →
      Matches word (c :: cs)

section

variable {first next : Char → Bool} {cs : List Char}

/-- A run is a first character and characters that go on. -/
theorem exists_take_runLength (h : 0 < runLength first next cs) :
    ∃ c ds, cs.take (runLength first next cs) = c :: ds ∧ first c = true ∧ ∀ d ∈ ds, next d = true := by
  cases cs with
  | nil => exact absurd h (Nat.lt_irrefl 0)
  | cons c cs =>
    cases hc : first c with
    | false => simp [runLength, hc] at h
    | true =>
      refine ⟨c, cs.takeWhile next, ?_, hc, fun d hd => List.all_eq_true.1 List.all_takeWhile d hd⟩
      simp [runLength, hc, take_length_takeWhile]

/-- No run of such characters is longer. -/
theorem length_le_runLength {c : Char} {ds : List Char} (hc : first c = true)
    (hds : ∀ d ∈ ds, next d = true) (h : c :: ds <+: cs) : (c :: ds).length ≤ runLength first next cs := by
  obtain ⟨more, rfl⟩ := h
  simp only [List.cons_append, runLength, hc, if_true, List.length_cons]
  rw [List.takeWhile_append_of_pos hds, List.length_append]
  omega

end

namespace Shape

/-- The match of a shape has the shape. -/
theorem matches_take {s : Shape} {cs : List Char} (h : 0 < s.matchLength cs) :
    s.Matches (cs.take (s.matchLength cs)) := by
  have hone {p : Char → Bool} (hp : 0 < runLength p (fun _ => false) cs) :
      ∃ c, cs.take (runLength p (fun _ => false) cs) = [c] ∧ p c = true := by
    obtain ⟨c, ds, htake, hc, hds⟩ := exists_take_runLength hp
    cases ds with
    | nil => exact ⟨c, htake, hc⟩
    | cons d ds => cases hds d (List.mem_cons_self ..)
  have hopener {d : Char} (hd : 0 < openerLength ['/', d] cs) :
      cs.take (openerLength ['/', d] cs) = ['/', d] := by
    unfold openerLength at hd ⊢
    split at hd
    · rename_i hfront
      rw [if_pos hfront]
      exact (List.prefix_iff_eq_take.1 (List.isPrefixOf_iff_prefix.1 hfront)).symm
    · cases hd
  cases s with
  | quote =>
    obtain ⟨c, htake, hc⟩ := hone h
    rw [matchLength, htake]
    exact .quote hc
  | punctuation =>
    obtain ⟨c, htake, hc⟩ := hone h
    rw [matchLength, htake]
    exact .punctuation hc
  | number =>
    obtain ⟨c, ds, htake, hc, hds⟩ := exists_take_runLength h
    rw [matchLength, htake]
    exact .number hc hds
  | blockComment =>
    rw [matchLength, hopener h]
    exact .blockComment
  | lineComment =>
    rw [matchLength, hopener h]
    exact .lineComment
  | operator =>
    rw [matchLength] at h ⊢
    obtain _ | ⟨c, cs⟩ := cs
    · cases h
    · by_cases hslash : c = '/'
      · rw [operatorLength, if_pos hslash, List.take_succ_cons, hslash]
        by_cases hlone : runLength isAfterSlash isOperatorChar cs = 0
        · rw [hlone, List.take_zero]
          exact .slash
        · obtain ⟨d, ds, htake, hd, hds⟩ := exists_take_runLength (Nat.pos_of_ne_zero hlone)
          rw [htake]
          exact .slashOperator hd hds
      · rw [operatorLength, if_neg hslash] at h ⊢
        obtain ⟨d, ds, htake, hd, hds⟩ := exists_take_runLength h
        have hfirst : d = c := by
          have hhead := congrArg List.head? htake
          rw [List.head?_take, if_neg (Nat.ne_of_gt h)] at hhead
          exact (Option.some.inj hhead).symm
        rw [htake]
        exact .operator hd (hfirst ▸ hslash) hds
  | word =>
    obtain ⟨c, ds, htake, hc, hds⟩ := exists_take_runLength h
    rw [matchLength, htake]
    exact .word hc hds

/-- No longer text at the start has the shape. -/
theorem Matches.length_le {s : Shape} {text cs : List Char} (h : s.Matches text) (hfront : text <+: cs) :
    text.length ≤ s.matchLength cs := by
  have hopener {d : Char} (hd : ['/', d] <+: cs) : 2 ≤ openerLength ['/', d] cs := by
    rw [openerLength, if_pos (List.isPrefixOf_iff_prefix.2 hd)]
    exact Nat.le_refl 2
  cases h with
  | quote hc => exact length_le_runLength hc (by simp) hfront
  | punctuation hc => exact length_le_runLength hc (by simp) hfront
  | number hc hcs => exact length_le_runLength hc hcs hfront
  | blockComment => exact hopener hfront
  | lineComment => exact hopener hfront
  | @operator c ds hc hslash hcs =>
    have hrun := length_le_runLength hc hcs hfront
    obtain ⟨more, rfl⟩ := hfront
    rwa [matchLength, List.cons_append, operatorLength, if_neg hslash]
  | slash =>
    obtain ⟨more, rfl⟩ := hfront
    exact Nat.succ_le_succ (Nat.zero_le _)
  | @slashOperator c ds hc hcs =>
    obtain ⟨more, rfl⟩ := hfront
    have hrun := length_le_runLength hc hcs (List.prefix_append (c :: ds) more)
    rw [matchLength, List.cons_append, operatorLength, if_pos rfl]
    exact Nat.succ_le_succ hrun
  | word hc hcs => exact length_le_runLength hc hcs hfront

/-! ## The first characters of a text -/

/-- The shape that the first two characters of a text tell. -/
def ofText? : List Char → Option Shape
  | [] => none
  | c :: cs =>
    if isQuote c then some .quote
    else if isPunctuation c then some .punctuation
    else if c.isDigit then some .number
    else if c = '/' ∧ cs.head? = some '*' then some .blockComment
    else if c = '/' ∧ cs.head? = some '/' then some .lineComment
    else if isOperatorChar c then some .operator
    else if isWordStart c then some .word
    else none

theorem eq_false_of_contains {p : Char → Bool} {cs : List Char} (hcs : cs.all (!p ·) = true) {c : Char}
    (hc : cs.contains c = true) : p c = false := by
  simpa using List.all_eq_true.1 hcs c (List.contains_iff_mem.1 hc)

theorem contains_eq_false {p : Char → Bool} {cs : List Char} (hcs : cs.all (!p ·) = true) {c : Char}
    (hc : p c = true) : cs.contains c = false := by
  by_contra hmem
  rw [Bool.not_eq_false] at hmem
  rw [eq_false_of_contains hcs hmem] at hc
  cases hc

theorem isQuote_eq (c : Char) : isQuote c = ['"', '\x27'].contains c := by
  simp only [isQuote, List.contains_cons, List.contains_nil, Bool.or_false]

theorem isQuote_eq_false {p : Char → Bool} (hp : ['"', '\x27'].all (!p ·) = true) {c : Char}
    (hc : p c = true) : isQuote c = false := by
  rw [isQuote_eq]
  exact contains_eq_false hp hc

theorem isDigit_eq_false {c : Char} (h : isWordStart c = true) : c.isDigit = false := by
  by_contra hdigit
  rw [Bool.not_eq_false] at hdigit
  simp only [isWordStart, Bool.or_eq_true, beq_iff_eq] at h
  rcases h with (h | rfl) | rfl
  · change (decide (c.val ≥ 'A'.val ∧ c.val ≤ 'Z'.val) ||
      (decide (c.val ≥ 'a'.val) && decide (c.val ≤ 'z'.val))) = true at h
    simp only [Char.isDigit, Bool.or_eq_true, Bool.and_eq_true, decide_eq_true_eq,
      UInt32.le_iff_toNat_le, ge_iff_le, Char.reduceVal, UInt32.reduceToNat] at h hdigit
    omega
  · exact absurd hdigit (by decide)
  · exact absurd hdigit (by decide)

/-- What has a shape tells it. -/
theorem Matches.ofText? {s : Shape} {text : List Char} (h : s.Matches text) : ofText? text = some s := by
  cases h with
  | quote hc => simp [Shape.ofText?, hc]
  | punctuation hc => simp [Shape.ofText?, isQuote_eq_false (by decide) hc, hc]
  | @number c cs hc _ =>
    have hpunctuation : isPunctuation c = false := contains_eq_false (by decide) hc
    simp [Shape.ofText?, isQuote_eq_false (by decide) hc, hpunctuation, hc]
  | blockComment => rfl
  | lineComment => rfl
  | @operator c cs hc hslash _ =>
    have hpunctuation : isPunctuation c = false := contains_eq_false (by decide) hc
    have hdigit : c.isDigit = false := eq_false_of_contains (by decide) hc
    simp [Shape.ofText?, isQuote_eq_false (by decide) hc, hpunctuation, hdigit, hslash, hc]
  | slash => rfl
  | @slashOperator c cs hc _ =>
    have hstar : c ≠ '*' := by
      rintro rfl
      cases hc
    have hslash : c ≠ '/' := by
      rintro rfl
      cases hc
    simp [Shape.ofText?, isQuote, isPunctuation, isOperatorChar, hstar, hslash]
  | @word c cs hc _ =>
    have hpunctuation : isPunctuation c = false := contains_eq_false (by decide) hc
    have hoperator : isOperatorChar c = false := contains_eq_false (by decide) hc
    have hslash : c ≠ '/' := by
      rintro rfl
      cases hc
    simp [Shape.ofText?, isQuote_eq_false (by decide) hc, hpunctuation, isDigit_eq_false hc, hslash,
      hoperator, hc]

/-- A text that tells a shape has a match of it. -/
theorem matchLength_pos_of_ofText? {s : Shape} {cs : List Char} (h : ofText? cs = some s) :
    0 < s.matchLength cs := by
  have hone {c : Char} {ds : List Char} (hs : s.Matches [c]) : 0 < s.matchLength (c :: ds) :=
    hs.length_le (List.prefix_append [c] ds)
  cases cs with
  | nil => cases h
  | cons c ds =>
    rw [ofText?] at h
    split_ifs at h with hquote hpunctuation hdigit hblock hline hoperator hword
    all_goals cases h
    · exact hone (.quote hquote)
    · exact hone (.punctuation hpunctuation)
    · exact hone (.number hdigit (by simp))
    · rw [matchLength, openerLength_cons, if_pos hblock]
      exact Nat.two_pos
    · rw [matchLength, openerLength_cons, if_pos hline]
      exact Nat.two_pos
    · by_cases hslash : c = '/'
      · subst hslash
        exact hone .slash
      · exact hone (.operator hoperator hslash (by simp))
    · exact hone (.word hword (by simp))

/-- The first characters of a text tell the shape of the whole; only a slash alone does not show that a
comment starts with it. -/
theorem ofText?_take {n : Nat} (hn : 0 < n) (cs : List Char) :
    ofText? (cs.take n) = ofText? cs ∨ n = 1 ∧ ∃ s, ofText? cs = some s ∧ 1 < s.matchLength cs := by
  obtain _ | ⟨c, ds⟩ := cs
  · exact .inl (by rw [List.take_nil])
  obtain ⟨k, rfl⟩ := Nat.exists_eq_add_of_lt hn
  rw [Nat.zero_add, List.take_succ_cons]
  by_cases hk : k = 0
  · subst hk
    by_cases hblock : c = '/' ∧ ds.head? = some '*'
    · refine .inr ⟨rfl, .blockComment, ?_, ?_⟩
      · rw [hblock.1]
        simp [ofText?, isQuote, isPunctuation, hblock.2]
      · rw [matchLength, openerLength_cons, if_pos hblock]
        exact Nat.one_lt_two
    · by_cases hline : c = '/' ∧ ds.head? = some '/'
      · refine .inr ⟨rfl, .lineComment, ?_, ?_⟩
        · rw [hline.1]
          simp [ofText?, isQuote, isPunctuation, hline.2]
        · rw [matchLength, openerLength_cons, if_pos hline]
          exact Nat.one_lt_two
      · left
        simp only [ofText?, if_neg hblock, if_neg hline, List.take_zero, List.head?_nil, reduceCtorEq,
          and_false, if_false]
  · left
    simp only [ofText?, List.head?_take, if_neg hk]

/-- Of all shapes the one that the first characters tell matches longest. -/
theorem longest_eq (cs : List Char) : longest cs = (ofText? cs).map fun s => (s, s.matchLength cs) := by
  have hall (s : Shape) : s ∈ all := by cases s <;> decide
  cases hwins : longest cs with
  | none =>
    cases htext : ofText? cs with
    | none => rfl
    | some s =>
      have hpos := matchLength_pos_of_ofText? htext
      rw [matchLength_of_longestOf_eq_none hwins s (hall s)] at hpos
      cases hpos
  | some winner =>
    obtain ⟨s, n⟩ := winner
    obtain ⟨-, rfl, hpos, hmax⟩ := longestOf_eq_some hwins
    -- the winner's match tells its shape, and the whole text the same one: a comment opener would match
    -- longer than a slash alone
    rcases ofText?_take hpos cs with heq | ⟨hone, t, ht, hlt⟩
    · rw [← heq, (matches_take hpos).ofText?]
      rfl
    · have hle := hmax t (hall t)
      omega

-- behind another operator character a comment opener is part of the operator
example : longest ['+', '/', '*'] = some (.operator, 3) := by decide

end Shape

namespace Mode

/-! ## Dispatch in order -/

/-- The lexeme of a word, looked up in the word tables one after the other. -/
def wordLexeme (region : Region) (g : Grammar) (word : List Char) : Lexeme :=
  if g.keywords word then
    ⟨.keyword, if g.blockKeywords word then some .blockKeyword else none, word.length, region⟩
  else if g.builtins word then ⟨.builtin, none, word.length, region⟩
  else if g.atoms word then ⟨.atom, none, word.length, region⟩
  else ⟨.word, none, word.length, region⟩

/-- The lexeme of a text that starts with `c` and goes on with `cs`, read as in code, where no hook captures
it: the first case that fits. All but a string and a block comment leave the region as it is. -/
def dispatch (m : Mode) (region : Region) (c : Char) (cs : List Char) : Lexeme :=
  if isQuote c then .string m.multiLineStrings c 1 cs
  else if isPunctuation c then ⟨.bracket, Signal.ofChar? c, 1, region⟩
  else if c.isDigit then ⟨.number, none, 1 + (cs.takeWhile isNumberChar).length, region⟩
  else if c = '/' ∧ cs.head? = some '*' then .comment 2 cs.tail
  else if c = '/' ∧ cs.head? = some '/' then ⟨.comment, none, 1 + cs.length, region⟩
  else if isOperatorChar c then ⟨.operator, none, 1 + (cs.takeWhile isOperatorChar).length, region⟩
  else wordLexeme region m.grammar (c :: cs.takeWhile isWordChar)

theorem word_eq_wordLexeme (region : Region) (g : Grammar) {n : Nat} {cs : List Char} (hn : n ≤ cs.length) :
    Lexeme.word region g n cs = wordLexeme region g (cs.take n) := by
  have hlength : (cs.take n).length = n := by rw [List.length_take, Nat.min_eq_left hn]
  rw [Lexeme.word, wordLexeme, hlength, Grammar.category, Grammar.signal, Grammar.classify]
  split_ifs with hkeyword hblock hbuiltin hatom
  · rw [hblock]
  · rw [Bool.not_eq_true] at hblock
    rw [hblock]
  · rfl
  · rfl
  · rfl

/-- A run of word characters behind a first character is a word. -/
theorem word_runLength (region : Region) (g : Grammar) {first : Char → Bool} {c : Char}
    (hc : first c = true) (cs : List Char) :
    Lexeme.word region g (runLength first isWordChar (c :: cs)) (c :: cs) =
      wordLexeme region g (c :: cs.takeWhile isWordChar) := by
  rw [word_eq_wordLexeme region g (runLength_le _ _ _), runLength, if_pos hc, List.take_succ_cons,
    take_length_takeWhile]

/-- Where no comment starts, an operator takes all operator characters. -/
theorem operatorLength_eq {c : Char} {cs : List Char} (hc : isOperatorChar c = true)
    (hblock : ¬(c = '/' ∧ cs.head? = some '*')) (hline : ¬(c = '/' ∧ cs.head? = some '/')) :
    operatorLength (c :: cs) = 1 + (cs.takeWhile isOperatorChar).length := by
  by_cases hslash : c = '/'
  · rw [operatorLength, if_pos hslash, Nat.add_comm]
    cases cs with
    | nil => rfl
    | cons d ds =>
      have hstar : d ≠ '*' := fun h => hblock ⟨hslash, by rw [h]; rfl⟩
      have hslash' : d ≠ '/' := fun h => hline ⟨hslash, by rw [h]; rfl⟩
      have hafter : isAfterSlash d = isOperatorChar d := by
        rw [isAfterSlash, bne_iff_ne.2 hstar, bne_iff_ne.2 hslash', Bool.and_true, Bool.and_true]
      rw [runLength, hafter, List.takeWhile_cons]
      split <;> rfl
  · rw [operatorLength, if_neg hslash, runLength, if_pos hc, Nat.add_comm]

/-- The longest match over all shapes is the first case that fits. -/
theorem shapeLexeme_eq_dispatch (m : Mode) (region : Region) (c : Char) (cs : List Char) :
    m.shapeLexeme region (c :: cs) = m.dispatch region c cs := by
  have hone {p : Char → Bool} (hp : p c = true) : runLength p (fun _ => false) (c :: cs) = 1 := by
    cases cs <;> simp [runLength, hp]
  rw [shapeLexeme, Shape.longest_eq, Shape.ofText?, dispatch]
  split_ifs with hquote hpunctuation hdigit hblock hline hoperator hword
  · simp only [Option.map_some, Shape.matchLength, hone hquote]
    rfl
  · simp only [Option.map_some, Shape.matchLength, hone hpunctuation]
    rfl
  · simp only [Option.map_some, Shape.matchLength, runLength, if_pos hdigit, Lexeme.plain, Nat.add_comm]
  · simp only [Option.map_some, Shape.matchLength, openerLength_cons, if_pos hblock, List.drop_succ_cons,
      List.drop_one]
  · simp only [Option.map_some, Lexeme.plain, List.length_cons, Nat.add_comm]
  · simp only [Option.map_some, Shape.matchLength, operatorLength_eq hoperator hblock hline, Lexeme.plain]
  · simp only [Option.map_some, Shape.matchLength, word_runLength region m.grammar hword]
  · exact word_runLength region m.grammar rfl cs

/-- A punctuation character has a signal, which is that of no other character. -/
theorem ofChar?_of_isPunctuation {c : Char} (h : isPunctuation c = true) :
    ∃ signal, Signal.ofChar? c = some signal ∧ signal.char? = some c := by
  have hmem : c ∈ ['[', ']', '\x7b', '\x7d', '(', ')', ',', ';', ':', '.'] := List.contains_iff_mem.1 h
  simp only [List.mem_cons, List.not_mem_nil, or_false] at hmem
  rcases hmem with rfl | rfl | rfl | rfl | rfl | rfl | rfl | rfl | rfl | rfl
  all_goals exact ⟨_, rfl, rfl⟩

/-- In code, with no hook on the first character, the lexeme that comes next is the first case that fits:
its category, its signal, its length and the region behind it, which is the same as before but for a string or
a block comment. A punctuation character has its own signal.
Each shape is taken with its longest match, no text has two shapes, and so no two shapes match equally
long. -/
theorem codeLexeme_eq_dispatch (m : Mode) {c : Cursor} {d : Char} {cs : List Char}
    (hrest : c.rest = d :: cs) (hhook : m.hooks[d]? = none) (s : State) :
    m.codeLexeme c s = m.dispatch s.region d cs ∧
    (isPunctuation d = true → ∃ signal, Signal.ofChar? d = some signal ∧ signal.char? = some d) ∧
    (∀ (shape : Shape) (text cs : List Char), shape.Matches text → text <+: cs →
      text.length ≤ shape.matchLength cs) ∧
    (∀ (shape : Shape) (cs : List Char), 0 < shape.matchLength cs →
      shape.Matches (cs.take (shape.matchLength cs))) ∧
    (∀ (shape shape' : Shape) (text : List Char), shape.Matches text → shape'.Matches text →
      shape = shape') ∧
    ∀ (shape shape' : Shape) (cs : List Char), 0 < shape.matchLength cs →
      shape.matchLength cs = shape'.matchLength cs → shape = shape' := by
  have hdisjoint (shape shape' : Shape) (text : List Char) (h : shape.Matches text)
      (h' : shape'.Matches text) : shape = shape' := Option.some.inj (h.ofText?.symm.trans h'.ofText?)
  refine ⟨?_, ofChar?_of_isPunctuation, fun _ _ _ h => h.length_le, fun _ _ => Shape.matches_take, hdisjoint,
    fun shape shape' cs hpos heq => ?_⟩
  · have hcapture : m.capture? c s = none := by simp [capture?, Cursor.peek, hrest, hhook]
    rw [codeLexeme, hcapture, hrest]
    exact m.shapeLexeme_eq_dispatch s.region d cs
  · refine hdisjoint shape shape' _ (Shape.matches_take hpos) ?_
    rw [heq] at hpos ⊢
    exact Shape.matches_take hpos

/-- In `/=*x` the operator goes on behind the slash, and no comment starts in it. -/
theorem codeLexeme_eq_dispatch_operator :
    let c := bare.cursor ['/', '=', '*', 'x']
    c.rest = '/' :: ['=', '*', 'x'] ∧ bare.hooks['/']? = none ∧
      bare.codeLexeme c (bare.start 0) = ⟨.operator, none, 3, .code⟩ := by
  intro c
  have hhook : bare.hooks['/']? = none := by decide
  obtain ⟨hlexeme, -⟩ := bare.codeLexeme_eq_dispatch (c := c) rfl hhook (bare.start 0)
  exact ⟨rfl, hhook, hlexeme.trans (by decide)⟩

end Mode

end ShaderText
