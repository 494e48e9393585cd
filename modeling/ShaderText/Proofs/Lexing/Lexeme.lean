/-
What a lexeme depends on. A lexeme that leaves something of its line depends on its own text and at most
on the character behind it, and a blank behind it or the end of the line stops it in any case: put
before another text that starts with the same character, with a blank, or not at all, it is read again.
-/
import ShaderText.Proofs.Lexing.Alike

namespace ShaderText

/-! ## Classes without blanks -/

/-- No blank is in the class. -/
def BlankFree (p : Char → Bool) : Prop := ∀ c, p c = true → isBlank c = false

theorem not_isBlank_of_ascii {c : Char} (h : 33 ≤ c.toNat) (h' : c.toNat ≤ 126) :
    isBlank c = false := by
  simp only [isBlank]
  grind

theorem blankFree_contains {cs : List Char} (h : cs.all (!isBlank ·) = true) : BlankFree cs.contains := by
  intro c hc
  simpa using List.all_eq_true.1 h c (List.contains_iff_mem.1 hc)

theorem blankFree_isDigit : BlankFree Char.isDigit := by
  intro c hc
  simp only [Char.isDigit, Bool.and_eq_true, decide_eq_true_eq, UInt32.le_iff_toNat_le, ge_iff_le,
    Char.reduceVal, UInt32.reduceToNat] at hc
  exact not_isBlank_of_ascii (by rw [Char.toNat]; omega) (by rw [Char.toNat]; omega)

theorem blankFree_isAlpha : BlankFree Char.isAlpha := by
  intro c hc
  change (decide (c.val ≥ 'A'.val ∧ c.val ≤ 'Z'.val) ||
    (decide (c.val ≥ 'a'.val) && decide (c.val ≤ 'z'.val))) = true at hc
  simp only [Bool.or_eq_true, Bool.and_eq_true, decide_eq_true_eq, UInt32.le_iff_toNat_le, ge_iff_le,
    Char.reduceVal, UInt32.reduceToNat] at hc
  exact not_isBlank_of_ascii (by rw [Char.toNat]; omega) (by rw [Char.toNat]; omega)

theorem blankFree_isAlphanum : BlankFree Char.isAlphanum := by
  intro c hc
  rw [Char.isAlphanum, Bool.or_eq_true] at hc
  exact hc.elim (blankFree_isAlpha c) (blankFree_isDigit c)

theorem blankFree_isWordChar : BlankFree isWordChar := by
  intro c hc
  simp only [isWordChar, Bool.or_eq_true, beq_iff_eq] at hc
  rcases hc with (hc | rfl) | rfl
  · exact blankFree_isAlphanum c hc
  · decide
  · decide

theorem blankFree_isWordStart : BlankFree isWordStart := by
  intro c hc
  simp only [isWordStart, Bool.or_eq_true, beq_iff_eq] at hc
  rcases hc with (hc | rfl) | rfl
  · exact blankFree_isAlpha c hc
  · decide
  · decide

theorem blankFree_isNumberChar : BlankFree isNumberChar := by
  intro c hc
  simp only [isNumberChar, Bool.or_eq_true, beq_iff_eq] at hc
  rcases hc with (hc | rfl) | rfl
  · exact blankFree_isAlphanum c hc
  · decide
  · decide

theorem blankFree_isQuote : BlankFree isQuote := by
  intro c hc
  simp only [isQuote, Bool.or_eq_true, beq_iff_eq] at hc
  rcases hc with rfl | rfl
  · decide
  · decide

theorem blankFree_isPunctuation : BlankFree isPunctuation := blankFree_contains (by decide)

theorem blankFree_isOperatorChar : BlankFree isOperatorChar := blankFree_contains (by decide)

theorem blankFree_isAfterSlash : BlankFree isAfterSlash := by
  intro c hc
  simp only [isAfterSlash, Bool.and_eq_true] at hc
  exact blankFree_isOperatorChar c hc.1.1

/-! ## What may follow -/

/-- Behind its first `k` characters the text `cs` may go on with `more` instead: with the same character
as before, with a blank, or not at all. -/
def CanFollow (cs : List Char) (k : Nat) (more : List Char) : Prop :=
  more.head? = (cs.drop k).head? ∨ ∀ c ∈ more.head?, isBlank c = true

section

variable {cs more : List Char} {k : Nat}

/-- What stopped a run behind the first `k` characters stops it again. -/
theorem CanFollow.stops (h : CanFollow cs k more) {p : Char → Bool} (hp : BlankFree p)
    (hstop : ∀ c ∈ (cs.drop k).head?, p c = false) : ∀ c ∈ more.head?, p c = false := by
  intro c hc
  rcases h with heq | hblank
  · exact hstop c (heq ▸ hc)
  · by_contra hpc
    have hno := hp c (by simpa using hpc)
    rw [hblank c hc] at hno
    cases hno

theorem takeWhile_eq_nil_of_head? {p : Char → Bool} {cs : List Char}
    (h : ∀ c ∈ cs.head?, p c = false) : cs.takeWhile p = [] := by
  cases cs with
  | nil => rfl
  | cons c cs => simp [h c rfl]

theorem exists_take_append_eq_cons (hk : 0 < k) (hcs : cs ≠ []) (more : List Char) :
    ∃ c ds j, cs = c :: ds ∧ k = j + 1 ∧ cs.take k ++ more = c :: (ds.take j ++ more) := by
  obtain ⟨c, ds, rfl⟩ := List.exists_cons_of_ne_nil hcs
  obtain ⟨j, rfl⟩ := Nat.exists_eq_add_of_lt hk
  rw [Nat.zero_add]
  exact ⟨c, ds, j, rfl, rfl, rfl⟩

/-- A run that ends within the first `k` characters ends there whatever follows. -/
theorem takeWhile_take_append {p : Char → Bool} (hp : BlankFree p)
    (hle : (cs.takeWhile p).length ≤ k) (hmore : CanFollow cs k more) :
    (cs.take k ++ more).takeWhile p = cs.takeWhile p := by
  induction cs generalizing k with
  | nil =>
    rw [List.take_nil, List.nil_append, List.takeWhile_nil]
    exact takeWhile_eq_nil_of_head? (hmore.stops hp (by simp))
  | cons c cs ih =>
    cases hc : p c with
    | false =>
      rw [List.takeWhile_cons_of_neg (by simp [hc])]
      cases k with
      | zero => exact takeWhile_eq_nil_of_head? (hmore.stops hp (by simp [hc]))
      | succ k => exact List.takeWhile_cons_of_neg (by simp [hc])
    | true =>
      rw [List.takeWhile_cons_of_pos hc, List.length_cons] at hle
      cases k with
      | zero => omega
      | succ k =>
        rw [List.take_succ_cons, List.cons_append, List.takeWhile_cons_of_pos hc,
          List.takeWhile_cons_of_pos hc, ih (Nat.le_of_succ_le_succ hle) hmore]

/-! ## Shapes -/

theorem runLength_take_append_of_pos {first next : Char → Bool} (hnext : BlankFree next) (hk : 0 < k)
    (hcs : cs ≠ []) (hle : runLength first next cs ≤ k) (hmore : CanFollow cs k more) :
    runLength first next (cs.take k ++ more) = runLength first next cs := by
  obtain ⟨c, cs, k, rfl, rfl, hcons⟩ := exists_take_append_eq_cons hk hcs more
  rw [hcons]
  cases hc : first c with
  | false => simp [runLength, hc]
  | true =>
    simp only [runLength, hc, if_true] at hle ⊢
    rw [takeWhile_take_append hnext (Nat.le_of_succ_le_succ hle) hmore]

theorem runLength_eq_zero {first next : Char → Bool} (h : ∀ c ∈ cs.head?, first c = false) :
    runLength first next cs = 0 := by
  cases cs with
  | nil => rfl
  | cons c cs => simp [runLength, h c rfl]

theorem runLength_take_append {first next : Char → Bool} (hfirst : BlankFree first)
    (hnext : BlankFree next) (hle : runLength first next cs ≤ k) (hmore : CanFollow cs k more) :
    runLength first next (cs.take k ++ more) = runLength first next cs := by
  cases cs with
  | nil =>
    rw [List.take_nil, List.nil_append]
    exact runLength_eq_zero (hmore.stops hfirst (by simp))
  | cons c cs =>
    cases k with
    | zero =>
      have hc : first c = false := by
        by_contra hc
        simp [runLength, hc] at hle
      rw [List.take_zero, List.nil_append, runLength_eq_zero (hmore.stops hfirst (by simp [hc])),
        runLength_eq_zero (by simp [hc])]
    | succ k => exact runLength_take_append_of_pos hnext k.succ_pos (List.cons_ne_nil c cs) hle hmore

theorem operatorLength_take_append (hk : 0 < k) (hcs : cs ≠ []) (hle : operatorLength cs ≤ k)
    (hmore : CanFollow cs k more) : operatorLength (cs.take k ++ more) = operatorLength cs := by
  obtain ⟨c, cs, k, rfl, rfl, hcons⟩ := exists_take_append_eq_cons hk hcs more
  rw [hcons]
  by_cases hslash : c = '/'
  · simp only [operatorLength, if_pos hslash] at hle ⊢
    rw [runLength_take_append blankFree_isAfterSlash blankFree_isOperatorChar
      (Nat.le_of_succ_le_succ hle) hmore]
  · simp only [operatorLength, if_neg hslash] at hle ⊢
    exact runLength_take_append blankFree_isOperatorChar blankFree_isOperatorChar hle hmore

theorem openerLength_cons (c d : Char) (cs : List Char) :
    openerLength ['/', d] (c :: cs) = if c = '/' ∧ cs.head? = some d then 2 else 0 := by
  have hiff : ['/', d].isPrefixOf (c :: cs) = true ↔ c = '/' ∧ cs.head? = some d := by
    cases cs with
    | nil => simp [List.isPrefixOf]
    | cons e cs => simp [List.isPrefixOf, @eq_comm _ '/' c, @eq_comm _ d e]
  simp only [openerLength, hiff]
  rfl

/-- A comment opener is met again, and behind a single slash none arises. -/
theorem openerLength_take_append {d : Char} (hd : isBlank d = false) (hk : 0 < k) (hcs : cs ≠ [])
    (hle : openerLength ['/', d] cs ≤ k) (hmore : CanFollow cs k more) :
    openerLength ['/', d] (cs.take k ++ more) = openerLength ['/', d] cs := by
  obtain ⟨c, cs, k, rfl, rfl, hcons⟩ := exists_take_append_eq_cons hk hcs more
  rw [hcons, openerLength_cons, openerLength_cons]
  rw [openerLength_cons] at hle
  by_cases hslash : c = '/'
  · have hhead : (cs.take k ++ more).head? = some d ↔ cs.head? = some d := by
      have hnot : (∀ c ∈ more.head?, isBlank c = true) → more.head? ≠ some d := by
        intro hblank heq
        rw [hblank d heq] at hd
        cases hd
      cases k with
      | zero =>
        have hopener : cs.head? ≠ some d := by
          intro heq
          rw [if_pos ⟨hslash, heq⟩] at hle
          omega
        rcases hmore with heq | hblank
        · simpa using Iff.of_eq (congrArg (· = some d) heq)
        · simpa using iff_of_false (hnot hblank) hopener
      | succ k =>
        cases cs with
        | nil =>
          rcases hmore with heq | hblank
          · simpa using Iff.of_eq (congrArg (· = some d) heq)
          · simpa using hnot hblank
        | cons e cs => simp
    simp only [hhead]
  · simp only [hslash, false_and]

theorem Shape.matchLength_take_append (hk : 0 < k) (hcs : cs ≠ []) (hmore : CanFollow cs k more)
    (s : Shape) (hle : s.matchLength cs ≤ k) :
    s.matchLength (cs.take k ++ more) = s.matchLength cs := by
  have hnone : BlankFree fun _ => false := fun c hc => by cases hc
  cases s with
  | quote => exact runLength_take_append blankFree_isQuote hnone hle hmore
  | punctuation => exact runLength_take_append blankFree_isPunctuation hnone hle hmore
  | number => exact runLength_take_append blankFree_isDigit blankFree_isNumberChar hle hmore
  | blockComment => exact openerLength_take_append (by decide) hk hcs hle hmore
  | lineComment => exact openerLength_take_append (by decide) hk hcs hle hmore
  | operator => exact operatorLength_take_append hk hcs hle hmore
  | word => exact runLength_take_append blankFree_isWordStart blankFree_isWordChar hle hmore

theorem Shape.longestOf_congr {cs ds : List Char} {ss : List Shape}
    (h : ∀ s ∈ ss, s.matchLength cs = s.matchLength ds) : longestOf cs ss = longestOf ds ss := by
  induction ss with
  | nil => rfl
  | cons s ss ih =>
    obtain ⟨hs, hss⟩ := List.forall_mem_cons.1 h
    simp only [longestOf, hs, ih hss]

theorem Shape.le_length_of_longest {s : Shape} {n : Nat} (h : longest cs = some (s, n)) : n ≤ cs.length := by
  obtain ⟨-, hn, -⟩ := longestOf_eq_some h
  exact hn ▸ matchLength_le cs s

/-- Where all matches end within the first `k` characters, the same shape wins whatever follows. -/
theorem Shape.longest_take_append (hk : 0 < k) (hcs : cs ≠ []) (hle : ∀ s : Shape, s.matchLength cs ≤ k)
    (hmore : CanFollow cs k more) : longest (cs.take k ++ more) = longest cs :=
  longestOf_congr fun s _ => matchLength_take_append hk hcs hmore s (hle s)

/-! ## Literals -/

/-- A string that is closed within the first `k` characters is closed there whatever follows. -/
theorem scanString_take_append {quote : Char} {escaped : Bool}
    (hclosed : (scanString quote escaped cs).closed = true)
    (hle : (scanString quote escaped cs).length ≤ k) (more : List Char) :
    scanString quote escaped (cs.take k ++ more) = scanString quote escaped cs := by
  induction cs generalizing escaped k with
  | nil => cases hclosed
  | cons c cs ih =>
    rw [scanString] at hclosed hle ⊢
    by_cases hend : c = quote ∧ escaped = false
    · rw [if_pos hend] at hle ⊢
      obtain ⟨k, rfl⟩ := Nat.exists_eq_succ_of_ne_zero (Nat.pos_iff_ne_zero.1 hle)
      rw [List.take_succ_cons, List.cons_append, scanString, if_pos hend]
    · rw [if_neg hend] at hclosed hle ⊢
      obtain ⟨k, rfl⟩ := Nat.exists_eq_succ_of_ne_zero (Nat.pos_iff_ne_zero.1 (Nat.zero_lt_of_lt hle))
      rw [List.take_succ_cons, List.cons_append, scanString, if_neg hend,
        ih hclosed (Nat.le_of_succ_le_succ hle)]

/-- A comment that is closed within the first `k` characters is closed there whatever follows. -/
theorem scanComment_take_append {star : Bool} (hclosed : (scanComment star cs).closed = true)
    (hle : (scanComment star cs).length ≤ k) (more : List Char) :
    scanComment star (cs.take k ++ more) = scanComment star cs := by
  induction cs generalizing star k with
  | nil => cases hclosed
  | cons c cs ih =>
    rw [scanComment] at hclosed hle ⊢
    by_cases hend : c = '/' ∧ star = true
    · rw [if_pos hend] at hle ⊢
      obtain ⟨k, rfl⟩ := Nat.exists_eq_succ_of_ne_zero (Nat.pos_iff_ne_zero.1 hle)
      rw [List.take_succ_cons, List.cons_append, scanComment, if_pos hend]
    · rw [if_neg hend] at hclosed hle ⊢
      obtain ⟨k, rfl⟩ := Nat.exists_eq_succ_of_ne_zero (Nat.pos_iff_ne_zero.1 (Nat.zero_lt_of_lt hle))
      rw [List.take_succ_cons, List.cons_append, scanComment, if_neg hend,
        ih hclosed (Nat.le_of_succ_le_succ hle)]

/-- A string that leaves something of its line is read again. -/
theorem Lexeme.string_take_append {multiLine : Bool} {quote : Char} {opened : Nat}
    (hlt : (Lexeme.string multiLine quote opened cs).length < opened + cs.length) (more : List Char) :
    Lexeme.string multiLine quote opened
        (cs.take ((Lexeme.string multiLine quote opened cs).length - opened) ++ more) =
      Lexeme.string multiLine quote opened cs := by
  have hlength : (Lexeme.string multiLine quote opened cs).length =
      opened + (scanString quote false cs).length := rfl
  have hclosed : (scanString quote false cs).closed = true := by
    by_contra hopen
    have := length_scanString_of_not_closed (by simpa using hopen)
    omega
  rw [hlength, Nat.add_sub_cancel_left]
  simp only [Lexeme.string, scanString_take_append hclosed (Nat.le_refl _) more]

/-- A block comment that leaves something of its line is read again. -/
theorem Lexeme.comment_take_append {opened : Nat}
    (hlt : (Lexeme.comment opened cs).length < opened + cs.length) (more : List Char) :
    Lexeme.comment opened (cs.take ((Lexeme.comment opened cs).length - opened) ++ more) =
      Lexeme.comment opened cs := by
  have hlength : (Lexeme.comment opened cs).length = opened + (scanComment false cs).length := rfl
  have hclosed : (scanComment false cs).closed = true := by
    by_contra hopen
    have := length_scanComment_of_not_closed (by simpa using hopen)
    omega
  rw [hlength, Nat.add_sub_cancel_left]
  simp only [Lexeme.comment, scanComment_take_append hclosed (Nat.le_refl _) more]

/-! ## Lexemes -/

theorem head?_take_append (hk : 0 < k) (hcs : cs ≠ []) : (cs.take k ++ more).head? = cs.head? := by
  obtain ⟨c, cs, k, rfl, rfl, hcons⟩ := exists_take_append_eq_cons hk hcs more
  rw [hcons]
  rfl

theorem drop_take_append {j : Nat} (hjk : j ≤ k) (hk : k ≤ cs.length) :
    (cs.take k ++ more).drop j = (cs.drop j).take (k - j) ++ more := by
  rw [List.drop_append_of_le_length (by rw [List.length_take]; omega), List.drop_take]

theorem Lexeme.length_string_le (multiLine : Bool) (quote : Char) (opened : Nat) (cs : List Char) :
    (Lexeme.string multiLine quote opened cs).length ≤ opened + cs.length :=
  Nat.add_le_add_left (length_scanString_le quote false cs) opened

theorem Lexeme.length_comment_le (opened : Nat) (cs : List Char) :
    (Lexeme.comment opened cs).length ≤ opened + cs.length :=
  Nat.add_le_add_left (length_scanComment_le false cs) opened

theorem Lexeme.length_word (region : Region) (g : Grammar) (n : Nat) (cs : List Char) :
    (Lexeme.word region g n cs).length = n := rfl

theorem Lexeme.word_take_append (region : Region) (g : Grammar) (hk : k ≤ cs.length) :
    Lexeme.word region g k (cs.take k ++ more) = Lexeme.word region g k cs := by
  have htake : (cs.take k ++ more).take k = cs.take k :=
    List.take_left' (by rw [List.length_take, Nat.min_eq_left hk])
  rw [Lexeme.word, Lexeme.word, htake]

namespace Mode

/-- No shape matches beyond the lexeme that is read. -/
theorem matchLength_le_length_shapeLexeme (m : Mode) (region : Region) (cs : List Char) (s : Shape) :
    s.matchLength cs ≤ (m.shapeLexeme region cs).length := by
  have hmem : s ∈ Shape.all := by cases s <;> decide
  unfold shapeLexeme
  cases hwins : Shape.longest cs with
  | none =>
    rw [Shape.matchLength_of_longestOf_eq_none hwins s hmem]
    exact Nat.zero_le _
  | some winner =>
    obtain ⟨winner, n⟩ := winner
    have hle := (Shape.longestOf_eq_some hwins).2.2.2 s hmem
    cases winner with
    | quote | blockComment => exact Nat.le_trans hle (Nat.le_add_right _ _)
    | lineComment => exact Shape.matchLength_le cs s
    | punctuation | number | operator | word => exact hle

theorem length_shapeLexeme_le (m : Mode) (region : Region) (cs : List Char) :
    (m.shapeLexeme region cs).length ≤ cs.length := by
  unfold shapeLexeme
  cases hwins : Shape.longest cs with
  | none => exact runLength_le _ _ cs
  | some winner =>
    obtain ⟨winner, n⟩ := winner
    have hle := Shape.le_length_of_longest hwins
    have hdrop : n + (cs.drop n).length = cs.length := by
      rw [List.length_drop, Nat.add_sub_cancel' hle]
    cases winner with
    | quote => exact hdrop ▸ Lexeme.length_string_le _ _ _ _
    | blockComment => exact hdrop ▸ Lexeme.length_comment_le _ _
    | lineComment => exact Nat.le_refl _
    | punctuation | number | operator | word => exact hle

/-- A lexeme ends in its line. -/
theorem length_lexeme_le (m : Mode) (c : Cursor) (s : State) : (m.lexeme c s).length ≤ c.rest.length := by
  unfold lexeme
  cases s.region with
  | code =>
    simp only [codeLexeme]
    cases m.capture? c s with
    | some captured => exact Nat.min_le_right _ _
    | none => exact m.length_shapeLexeme_le s.region c.rest
  | string quote => simpa using Lexeme.length_string_le m.multiLineStrings quote 0 c.rest
  | comment => simpa using Lexeme.length_comment_le 0 c.rest

/-- In code, a lexeme that leaves something of its line is read again before whatever may follow. -/
theorem shapeLexeme_take_append (m : Mode) (region : Region) (hcs : cs ≠ [])
    (hlt : (m.shapeLexeme region cs).length < cs.length)
    (hmore : CanFollow cs (m.shapeLexeme region cs).length more) :
    m.shapeLexeme region (cs.take (m.shapeLexeme region cs).length ++ more) = m.shapeLexeme region cs := by
  have hpos := m.length_shapeLexeme_pos region hcs
  have hlongest := Shape.longest_take_append hpos hcs (m.matchLength_le_length_shapeLexeme region cs) hmore
  obtain ⟨x, hx⟩ : ∃ x, m.shapeLexeme region cs = x := ⟨_, rfl⟩
  rw [hx] at hlt hmore hpos hlongest ⊢
  rw [shapeLexeme] at hx
  rw [shapeLexeme, hlongest]
  have hle := Nat.le_of_lt hlt
  have hhead : (cs.take x.length ++ more).head? = cs.head? := head?_take_append hpos hcs
  cases hwins : Shape.longest cs with
  | none =>
    simp only [hwins] at hx ⊢
    subst hx
    rw [Lexeme.length_word] at hpos hmore hle ⊢
    rw [runLength_take_append_of_pos blankFree_isWordChar hpos hcs (Nat.le_refl _) hmore]
    exact Lexeme.word_take_append region m.grammar hle
  | some winner =>
    obtain ⟨winner, n⟩ := winner
    simp only [hwins] at hx ⊢
    subst hx
    cases winner with
    | quote =>
      have hopened : n ≤ (Lexeme.string m.multiLineStrings (cs.headD '"') n (cs.drop n)).length :=
        Nat.le_add_right _ _
      simp only [List.headD_eq_head?_getD] at hlt hle hhead hopened ⊢
      rw [hhead, drop_take_append hopened hle]
      exact Lexeme.string_take_append (by rw [List.length_drop]; omega) more
    | blockComment =>
      have hopened : n ≤ (Lexeme.comment n (cs.drop n)).length := Nat.le_add_right _ _
      simp only at hlt hle ⊢
      rw [drop_take_append hopened hle]
      exact Lexeme.comment_take_append (by rw [List.length_drop]; omega) more
    | lineComment => exact absurd hlt (Nat.lt_irrefl _)
    | punctuation => simp only [hhead]
    | number => rfl
    | operator => rfl
    | word => exact Lexeme.word_take_append region m.grammar hle

/-- A lexeme that leaves something of its line is read again before whatever may follow. -/
theorem lexeme_take_append {m : Mode} (h : m.hooks.OnlyDirectives) {c c' : Cursor} {s s' : State}
    (hrest : c.rest ≠ []) (hlt : (m.lexeme c s).length < c.rest.length)
    (hmore : CanFollow c.rest (m.lexeme c s).length more)
    (hrest' : c'.rest = c.rest.take (m.lexeme c s).length ++ more) (hregion : s.region = s'.region)
    (hstart : s.startOfLine = s'.startOfLine) : m.lexeme c' s' = m.lexeme c s := by
  have hpos := m.length_lexeme_pos s hrest
  obtain ⟨x, hx⟩ : ∃ x, m.lexeme c s = x := ⟨_, rfl⟩
  rw [hx] at hlt hmore hpos hrest' ⊢
  rw [lexeme] at hx ⊢
  rw [← hregion]
  cases hs : s.region with
  | code =>
    have hhead : c'.rest.head? = c.rest.head? := hrest' ▸ head?_take_append hpos hrest
    have hs' : s'.region = .code := hregion.symm.trans hs
    simp only [hs, hs', codeLexeme, capture?_eq h] at hx ⊢
    rw [hhead, ← hstart]
    cases hcaptured : c.rest.head?.any (m.hooks.contains ·) && s.startOfLine with
    | true =>
      -- a directive leaves nothing of its line
      rw [hcaptured] at hx
      subst hx
      simp only [if_true] at hlt
      omega
    | false =>
      rw [hcaptured] at hx
      simp only [Bool.false_eq_true, if_false] at hx ⊢
      subst hx
      rw [hrest']
      exact m.shapeLexeme_take_append .code hrest hlt hmore
  | string quote =>
    simp only [hs] at hx ⊢
    subst hx
    rw [hrest']
    exact Lexeme.string_take_append (by omega) more
  | comment =>
    simp only [hs] at hx ⊢
    subst hx
    rw [hrest']
    exact Lexeme.comment_take_append (by omega) more

end Mode

end

/-! ## The region behind a lexeme -/

/-- A string goes on in the next line only if it takes all of its own. -/
theorem Lexeme.region_string {multiLine : Bool} {quote : Char} {opened : Nat} {cs : List Char} :
    (Lexeme.string multiLine quote opened cs).region = .code ∨
      (Lexeme.string multiLine quote opened cs).region = .string quote ∧
        (Lexeme.string multiLine quote opened cs).length = opened + cs.length := by
  cases hclosed : (scanString quote false cs).closed with
  | true => simp [Lexeme.string, hclosed]
  | false =>
    have hlength := length_scanString_of_not_closed hclosed
    simp only [Lexeme.string, hlength]
    split <;> simp

theorem Lexeme.region_comment {opened : Nat} {cs : List Char} :
    (Lexeme.comment opened cs).region = .code ∨
      (Lexeme.comment opened cs).region = .comment ∧
        (Lexeme.comment opened cs).length = opened + cs.length := by
  cases hclosed : (scanComment false cs).closed with
  | true => simp [Lexeme.comment, hclosed]
  | false =>
    have hlength := length_scanComment_of_not_closed hclosed
    simp [Lexeme.comment, hclosed, hlength]

namespace Mode

/-- The shape of a string is a quotation mark. -/
theorem eq_cons_of_longest_quote {cs : List Char} {n : Nat} (h : Shape.longest cs = some (.quote, n)) :
    ∃ quote rest, cs = quote :: rest ∧ isQuote quote = true ∧ n = 1 := by
  obtain ⟨-, hn, hpos, -⟩ := Shape.longestOf_eq_some h
  cases cs with
  | nil => simp [Shape.matchLength, runLength] at hn; omega
  | cons c cs =>
    cases hc : isQuote c with
    | false => simp [Shape.matchLength, runLength, hc] at hn; omega
    | true => exact ⟨c, cs, rfl, hc, by cases cs <;> simpa [Shape.matchLength, runLength, hc] using hn⟩

/-- Behind a lexeme read in code is code, or it took all of the line. -/
theorem region_shapeLexeme (m : Mode) (cs : List Char) :
    (m.shapeLexeme .code cs).region = .code ∨
      (m.shapeLexeme .code cs).length = cs.length ∧
        ∀ quote, (m.shapeLexeme .code cs).region = .string quote → isQuote quote = true := by
  rw [shapeLexeme]
  cases hwins : Shape.longest cs with
  | none => exact .inl rfl
  | some winner =>
    obtain ⟨winner, n⟩ := winner
    have hlength : n + (cs.drop n).length = cs.length := by
      rw [List.length_drop, Nat.add_sub_cancel' (Shape.le_length_of_longest hwins)]
    cases winner with
    | quote =>
      obtain ⟨quote, rest, rfl, hquote, rfl⟩ := eq_cons_of_longest_quote hwins
      refine Lexeme.region_string.imp_right fun ⟨hregion, hall⟩ => ⟨hall.trans hlength, ?_⟩
      intro quote' hquote'
      rw [hregion, Region.string.injEq] at hquote'
      exact hquote' ▸ hquote
    | blockComment =>
      refine Lexeme.region_comment.imp_right fun ⟨hregion, hall⟩ => ⟨hall.trans hlength, ?_⟩
      intro quote' hquote'
      rw [hregion] at hquote'
      cases hquote'
    | punctuation | number | lineComment | operator | word => exact .inl rfl

/-- Behind a lexeme is code, or it took all of the line; a string that goes on began with a quotation
mark. -/
theorem region_lexeme (m : Mode) (c : Cursor) (s : State) :
    (m.lexeme c s).region = .code ∨
      (m.lexeme c s).length = c.rest.length ∧
        ∀ quote, (m.lexeme c s).region = .string quote →
          isQuote quote = true ∨ s.region = .string quote := by
  unfold lexeme
  cases hs : s.region with
  | code =>
    simp only [codeLexeme, hs]
    cases m.capture? c s with
    | some captured => exact .inl rfl
    | none =>
      exact (m.region_shapeLexeme c.rest).imp_right fun ⟨hall, hquote⟩ =>
        ⟨hall, fun quote h => .inl (hquote quote h)⟩
  | string quote =>
    refine Lexeme.region_string.imp_right fun ⟨hregion, hall⟩ => ⟨hall.trans (Nat.zero_add _), ?_⟩
    intro quote' hquote'
    exact .inr (hregion ▸ hquote')
  | comment =>
    refine Lexeme.region_comment.imp_right fun ⟨hregion, hall⟩ => ⟨hall.trans (Nat.zero_add _), ?_⟩
    intro quote' hquote'
    simp only [hregion] at hquote'
    cases hquote'

/-- Behind a lexeme that leaves something of its line is code. -/
theorem region_lexeme_of_lt (m : Mode) {c : Cursor} {s : State} (h : (m.lexeme c s).length < c.rest.length) :
    (m.lexeme c s).region = .code := by
  rcases m.region_lexeme c s with hcode | ⟨hall, -⟩
  · exact hcode
  · exact absurd hall (Nat.ne_of_lt h)

end Mode

end ShaderText
