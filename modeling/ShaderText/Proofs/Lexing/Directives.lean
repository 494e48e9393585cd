/-
Where directives stand, in a mode whose hooks are all directives. A trigger starts a directive just if nothing
lies before it on its line but what is left of a comment, blanks, and comments that are closed there. The
directive takes the rest of the line; what lies before it is read as without hooks, and so is a line without a
directive as a whole.
-/
import ShaderText.Proofs.Lexing.OpenComments

namespace ShaderText

/-! ## What lies before a directive -/

/-- Blanks, and block comments that are closed. -/
inductive Lead : List Char → Prop
  | nil : Lead []
  | blank {d : Char} {cs : List Char} : isBlank d = true → Lead cs → Lead (d :: cs)
  | comment {text cs : List Char} :
      EndsInCloser text → Lead cs → Lead ('/' :: '*' :: (text ++ cs))

theorem Lead.blanks {gap cs : List Char} (hgap : ∀ d ∈ gap, isBlank d = true) (h : Lead cs) :
    Lead (gap ++ cs) := by
  induction gap with
  | nil => exact h
  | cons d gap ih =>
    rw [List.forall_mem_cons] at hgap
    exact .blank hgap.1 (ih hgap.2)

/-- What a line that is read from the region starts with, before it is read in code: what is left of a
comment, up to its closer. -/
def Region.Remainder : Region → List Char → Prop
  | code, front => front = []
  | comment, front => EndsInCloser front
  | string _, _ => False

/-- What may lie before a directive on a line that is read from the region. -/
def Region.Leads (region : Region) (lead : List Char) : Prop :=
  ∃ front more, lead = front ++ more ∧ region.Remainder front ∧ Lead more

/-! ## Cursors, and tokens that change nothing -/

theorem Category.eq_comment_of_isTransparent {category : Category} (h : category.isTransparent = true)
    (hne : category ≠ .directive) : category = .comment := by
  cases category with
  | comment => rfl
  | directive => exact absurd rfl hne
  | _ => cases h

/-- A comment or a directive that leads into no other region changes nothing. -/
theorem State.afterLexeme_of_transparent {s : State} {x : Lexeme} {column : Nat}
    (hx : x.category.isTransparent = true) (hregion : x.region = s.region) : s.afterLexeme x column = s := by
  rw [afterLexeme, if_pos hx, hregion]

theorem Cursor.pos_startToken_take {c : Cursor} {front more : List Char} (h : c.rest = front ++ more) :
    (c.startToken.take front.length).pos = c.pos + byteLength front := by
  have htoken : (c.startToken.take front.length).token = front := by
    rw [token_take, token_startToken, rest_startToken, h, List.take_left, List.nil_append]
  rw [pos, htoken]
  rfl

theorem Cursor.atLineStart_of_read {c : Cursor} (h : c.before ++ c.token ≠ []) : c.atLineStart = false := by
  by_contra hstart
  rw [Bool.not_eq_false, atLineStart, Bool.and_eq_true, List.isEmpty_iff, List.isEmpty_iff] at hstart
  refine h ?_
  rw [before, hstart.1, hstart.2]
  rfl

namespace Mode

variable {m : Mode} {s : State}

/-- The mode without its hooks. -/
def hookless (m : Mode) : Mode := { m with hooks := ∅ }

theorem capture?_hookless (m : Mode) (c : Cursor) (s : State) : m.hookless.capture? c s = none := by
  unfold capture? hookless
  cases c.peek with
  | none => rfl
  | some trigger => simp

/-! ## Lexemes -/

theorem category_shapeLexeme_ne_directive (m : Mode) (region : Region) (cs : List Char) :
    (m.shapeLexeme region cs).category ≠ .directive := by
  intro h
  have hliteral : (m.shapeLexeme region cs).category.isLiteral = true := by
    rw [h]
    rfl
  rcases m.opener_of_isLiteral hliteral with ⟨quote, rest, rfl, hquote⟩ | ⟨rest, rfl⟩ | ⟨rest, rfl⟩
  · rw [m.shapeLexeme_quote hquote] at h
    cases h
  · rw [m.shapeLexeme_blockComment] at h
    cases h
  · rw [m.shapeLexeme_lineComment] at h
    cases h

/-- In code, a trigger that stands at the start of its line takes the rest of the line. -/
theorem lexeme_of_trigger (h : m.hooks.OnlyDirectives) {c : Cursor} {d : Char} {rest : List Char}
    (hcode : s.region = .code) (hstart : s.startOfLine = true) (hrest : c.rest = d :: rest)
    (htrigger : m.hooks.contains d = true) : m.lexeme c s = ⟨.directive, none, rest.length + 1, .code⟩ := by
  simp [lexeme, hcode, codeLexeme, capture?_eq h, hrest, hstart, htrigger]

/-- A directive starts with a trigger, in code and at the start of its line. -/
theorem trigger_of_directive (h : m.hooks.OnlyDirectives) {c : Cursor}
    (hx : (m.lexeme c s).category = .directive) :
    s.region = .code ∧ s.startOfLine = true ∧ ∃ d rest, c.rest = d :: rest ∧ m.hooks.contains d = true := by
  unfold lexeme at hx
  cases hs : s.region with
  | code =>
    simp only [hs, codeLexeme, capture?_eq h] at hx
    cases hcaptured : c.rest.head?.any (m.hooks.contains ·) && s.startOfLine with
    | true =>
      obtain ⟨hany, hstart⟩ := Bool.and_eq_true_iff.1 hcaptured
      cases hrest : c.rest with
      | nil => rw [hrest] at hany; cases hany
      | cons d rest =>
        rw [hrest] at hany
        exact ⟨rfl, hstart, d, rest, rfl, hany⟩
    | false =>
      rw [hcaptured] at hx
      exact absurd hx (m.category_shapeLexeme_ne_directive .code c.rest)
  | string quote =>
    rw [hs] at hx
    cases hx
  | comment =>
    rw [hs] at hx
    cases hx

theorem capture?_of_not_directive (h : m.hooks.OnlyDirectives) {c : Cursor} (hcode : s.region = .code)
    (hx : (m.lexeme c s).category ≠ .directive) : m.capture? c s = none := by
  simp only [lexeme, hcode, codeLexeme, capture?_eq h] at hx ⊢
  cases hcaptured : c.rest.head?.any (m.hooks.contains ·) && s.startOfLine with
  | true =>
    rw [hcaptured] at hx
    exact absurd rfl hx
  | false => rfl

/-- A lexeme that is no directive is read without hooks too. -/
theorem lexeme_hookless (h : m.hooks.OnlyDirectives) {c : Cursor}
    (hx : (m.lexeme c s).category ≠ .directive) : m.hookless.lexeme c s = m.lexeme c s := by
  cases hs : s.region with
  | code =>
    have hfree := capture?_of_not_directive h hs hx
    simp only [lexeme, hs, codeLexeme, hfree, capture?_hookless]
    rfl
  | string quote =>
    simp only [lexeme, hs]
    rfl
  | comment => simp only [lexeme, hs]

/-- In code, a comment that is closed on its line ends there, unless a hook captures its opener. -/
theorem lexeme_of_closed {c : Cursor} {text back : List Char} (hcode : s.region = .code)
    (hrest : c.rest = '/' :: '*' :: (text ++ back)) (hends : EndsInCloser text)
    (hfree : m.capture? c s = none) : m.lexeme c s = ⟨.comment, none, 2 + text.length, .code⟩ := by
  rw [lexeme_of_opener hcode hrest hfree, Lexeme.comment_of_endsInCloser 2 hends]

/-- In code, a comment that leaves something of its line is closed. -/
theorem closed_of_comment {c : Cursor} (hcode : s.region = .code) (hfree : m.capture? c s = none)
    (hcomment : (m.lexeme c s).category = .comment) (hlt : (m.lexeme c s).length < c.rest.length) :
    ∃ text back, c.rest = '/' :: '*' :: (text ++ back) ∧ EndsInCloser text := by
  have hshape : m.lexeme c s = m.shapeLexeme .code c.rest := by simp only [lexeme, hcode, codeLexeme, hfree]
  rw [hshape] at hcomment hlt
  have hliteral : (m.shapeLexeme .code c.rest).category.isLiteral = true := by
    rw [hcomment]
    rfl
  rcases m.opener_of_isLiteral hliteral with ⟨quote, rest, hrest, hquote⟩ | ⟨rest, hrest⟩ | ⟨rest, hrest⟩
  · rw [hrest, m.shapeLexeme_quote hquote] at hcomment
    cases hcomment
  · by_cases hcloser : commentCloser <:+: rest
    · obtain ⟨text, back, rfl, hends⟩ := exists_endsInCloser hcloser
      exact ⟨text, back, hrest, hends⟩
    · rw [hrest, m.shapeLexeme_blockComment, Lexeme.comment_of_no_closer 2 hcloser] at hlt
      simp only [List.length_cons] at hlt
      omega
  · rw [hrest, m.shapeLexeme_lineComment, List.length_cons, List.length_cons] at hlt
    exact absurd hlt (Nat.lt_irrefl _)

/-! ## To the end of a line -/

/-- A directive is the last token of its line. -/
theorem lexFrom_of_trigger (h : m.hooks.OnlyDirectives) {c : Cursor} {d : Char} {rest : List Char}
    (hs : s.enter c = s) (hcode : s.region = .code) (hstart : s.startOfLine = true)
    (hrest : c.rest = d :: rest) (hd : isBlank d = false) (htrigger : m.hooks.contains d = true) :
    m.lexFrom c s = ([⟨.directive, d :: rest, c.pos, c.pos + byteLength (d :: rest)⟩], s) := by
  have hblank : leadingBlanks c.rest = [] := by simp [hrest, leadingBlanks, hd]
  have hne : c.rest ≠ [] := by simp [hrest]
  have hlexeme := lexeme_of_trigger h (c := c.startToken) hcode hstart hrest htrigger
  have hend : (c.startToken.take (rest.length + 1)).rest = [] := by simp [hrest]
  have htake : c.rest.take (rest.length + 1) = d :: rest := by simp [hrest]
  rw [m.lexFrom_of_lexeme hs hne hblank hlexeme, m.lexFrom_of_end _ hend, htake,
    State.afterLexeme_of_transparent rfl hcode.symm]

theorem rest_take_opener {c : Cursor} {text back : List Char}
    (hrest : c.rest = '/' :: '*' :: (text ++ back)) :
    (c.startToken.take (2 + text.length)).rest = back := by
  rw [Cursor.rest_take, Cursor.rest_startToken, hrest, drop_opener, List.drop_left]

theorem pos_take_opener {c : Cursor} {text back : List Char}
    (hrest : c.rest = '/' :: '*' :: (text ++ back)) :
    (c.startToken.take (2 + text.length)).pos = c.pos + (2 + byteLength text) := by
  have hsplit : c.rest = ('/' :: '*' :: text) ++ back := hrest
  rw [← byteLength_opener, ← Cursor.pos_startToken_take hsplit, Nat.add_comm 2]
  rfl

/-- A comment that is closed changes nothing for what follows it. -/
theorem lexFrom_of_closed (m : Mode) {c : Cursor} {text back : List Char} (hs : s.enter c = s)
    (hcode : s.region = .code) (hrest : c.rest = '/' :: '*' :: (text ++ back)) (hends : EndsInCloser text)
    (hfree : m.capture? c.startToken s = none) :
    m.lexFrom c s =
      (⟨.comment, '/' :: '*' :: text, c.pos, c.pos + (2 + byteLength text)⟩ ::
          (m.lexFrom (c.startToken.take (2 + text.length)) s).1,
        (m.lexFrom (c.startToken.take (2 + text.length)) s).2) := by
  have hblank : leadingBlanks c.rest = [] := by
    rw [hrest]
    rfl
  have hne : c.rest ≠ [] := by simp [hrest]
  have hlexeme := lexeme_of_closed (c := c.startToken) hcode hrest hends hfree
  have htake : c.rest.take (2 + text.length) = '/' :: '*' :: text := by
    rw [hrest, take_opener, List.take_left]
  rw [m.lexFrom_of_lexeme hs hne hblank hlexeme, htake, byteLength_opener,
    State.afterLexeme_of_transparent rfl hcode.symm]

/-- Behind a significant token, and inside a string, nothing starts a directive. -/
theorem not_directive_of_significant (h : m.hooks.OnlyDirectives) (c : Cursor) (s : State)
    (hc : s.enter c = s) (hs : s.startOfLine = false ∨ ∃ quote, s.region = .string quote) :
    ∀ t ∈ (m.lexFrom c s).1, t.category ≠ .directive := by
  induction c, s, hc using m.entered_induction with
  | atEnd c s _ hend => simp [m.lexFrom_of_end s hend]
  | blanks c s hc _ hblank ih =>
    rw [m.lexFrom_of_blank hc hblank]
    exact ih hs
  | lexeme c s x hc _ hne hblank hx ih =>
    have hplain : x.category ≠ .directive := by
      intro hdirective
      obtain ⟨hcode, hstart, -⟩ := trigger_of_directive h (hx ▸ hdirective)
      rcases hs with hoff | ⟨quote, hstring⟩
      · rw [hoff] at hstart; cases hstart
      · rw [hstring] at hcode; cases hcode
    have hafter : (s.afterLexeme x c.startToken.column).startOfLine = false := by
      rw [State.startOfLine_afterLexeme]
      rcases hs with hoff | ⟨quote, hstring⟩
      · rw [hoff, Bool.and_false]
      · have hcategory : x.category = .string := by
          rw [← hx, lexeme, hstring]
          rfl
        rw [hcategory]
        rfl
    rw [m.lexFrom_of_lexeme hc hne hblank hx, List.forall_mem_cons]
    exact ⟨hplain, ih (.inl hafter)⟩

/-- A token in code that is no directive, and has one behind it on its line, is a comment that is closed. -/
theorem closed_of_directive_behind (h : m.hooks.OnlyDirectives) {c : Cursor} {x : Lexeme}
    (hcode : s.region = .code)
    (hbehind : (s.afterLexeme x c.startToken.column).enter (c.startToken.take x.length) =
      s.afterLexeme x c.startToken.column)
    (hx : m.lexeme c.startToken s = x) (hfirst : x.category ≠ .directive)
    (hnext : ∃ t ∈ (m.lexFrom (c.startToken.take x.length) (s.afterLexeme x c.startToken.column)).1,
      t.category = .directive) :
    ∃ text back, c.rest = '/' :: '*' :: (text ++ back) ∧ EndsInCloser text ∧
      m.capture? c.startToken s = none := by
  have hlt : x.length < c.rest.length := by
    by_contra hall
    have hend : (c.startToken.take x.length).rest = [] := List.drop_eq_nil_of_le (Nat.le_of_not_lt hall)
    rw [m.lexFrom_of_end _ hend] at hnext
    simp at hnext
  have htransparent : x.category.isTransparent = true := by
    by_contra hsignificant
    obtain ⟨t, ht, hdirective⟩ := hnext
    refine not_directive_of_significant h _ _ hbehind (.inl ?_) t ht hdirective
    rw [State.startOfLine_afterLexeme, Bool.eq_false_iff.2 hsignificant, Bool.false_and]
  have hcomment := Category.eq_comment_of_isTransparent htransparent hfirst
  subst hx
  have hfree := capture?_of_not_directive (c := c.startToken) h hcode hfirst
  obtain ⟨text, back, hrest, hends⟩ := closed_of_comment (c := c.startToken) hcode hfree hcomment hlt
  exact ⟨text, back, hrest, hends, hfree⟩

/-- Without a directive, a line is read as without hooks. -/
theorem lexFrom_hookless (h : m.hooks.OnlyDirectives) (c : Cursor) (s : State) (hc : s.enter c = s)
    (hnone : ∀ t ∈ (m.lexFrom c s).1, t.category ≠ .directive) : m.lexFrom c s = m.hookless.lexFrom c s := by
  induction c, s, hc using m.entered_induction with
  | atEnd c s _ hend => rw [m.lexFrom_of_end s hend, m.hookless.lexFrom_of_end s hend]
  | blanks c s hc _ hblank ih =>
    rw [m.lexFrom_of_blank hc hblank] at hnone ⊢
    rw [m.hookless.lexFrom_of_blank hc hblank]
    exact ih hnone
  | lexeme c s x hc _ hne hblank hx ih =>
    rw [m.lexFrom_of_lexeme hc hne hblank hx] at hnone ⊢
    rw [List.forall_mem_cons] at hnone
    have hx' : m.hookless.lexeme c.startToken s = x := by
      rw [← hx]
      exact lexeme_hookless h (by rw [hx]; exact hnone.1)
    rw [m.hookless.lexFrom_of_lexeme hc hne hblank hx', ih hnone.2]

/-! ## Behind a lead -/

/-- A trigger behind a lead starts a directive, if none is started before it. -/
theorem exists_directive_of_lead (h : m.hooks.OnlyDirectives) {lead : List Char} (hlead : Lead lead)
    {d : Char} {rest : List Char} (hd : isBlank d = false) (htrigger : m.hooks.contains d = true)
    (hcode : s.region = .code) (hstart : s.startOfLine = true) {c : Cursor} (hc : s.enter c = s)
    (hrest : c.rest = lead ++ d :: rest) : ∃ t ∈ (m.lexFrom c s).1, t.category = .directive := by
  induction hlead generalizing c with
  | nil =>
    rw [lexFrom_of_trigger h hc hcode hstart hrest hd htrigger]
    exact ⟨_, List.mem_singleton_self _, rfl⟩
  | @blank b cs hb _ ih =>
    have hgap : ∀ d ∈ [b], isBlank d = true := by simpa using hb
    rw [m.lexFrom_of_blanks s (List.cons_ne_nil b []) hgap hrest, hc]
    exact ih (s.enter_take (by simp [hrest]) Nat.one_pos) (by simp [hrest])
  | @comment text cs hends _ ih =>
    have hrest' : c.rest = '/' :: '*' :: (text ++ (cs ++ d :: rest)) := by simp [hrest]
    by_cases hslash : m.hooks.contains '/' = true
    · rw [lexFrom_of_trigger h hc hcode hstart hrest' (by decide) hslash]
      exact ⟨_, List.mem_singleton_self _, rfl⟩
    · have hfree : m.capture? c.startToken s = none := by simp [capture?_eq h, hrest', hslash]
      have hmoved : s.enter (c.startToken.take (2 + text.length)) = s :=
        s.enter_take (by simp [hrest']) (by omega)
      obtain ⟨t, ht, hdirective⟩ := ih hmoved (rest_take_opener hrest')
      rw [m.lexFrom_of_closed hc hcode hrest' hends hfree]
      exact ⟨t, List.mem_cons_of_mem _ ht, hdirective⟩

/-- Read in code, what lies in front of the cursor is a lead and a directive; `comments` are the tokens of the
lead, with hooks and without. -/
structure Directed (m : Mode) (c : Cursor) (s : State) (lead : List Char) (d : Char) (rest : List Char)
    (comments : List Token) : Prop where
  rest_eq : c.rest = lead ++ d :: rest
  isLead : Lead lead
  ink : isBlank d = false
  trigger : m.hooks.contains d = true
  read : m.lexFrom c s =
    (comments ++ [⟨.directive, d :: rest, c.pos + byteLength lead, byteLength c.line⟩], s)
  transparent : ∀ t ∈ comments, t.category = .comment
  hookless : ∀ c' : Cursor, s.enter c' = s → c'.rest = lead → c'.pos = c.pos →
    (m.hookless.lexFrom c' s).1 = comments

namespace Directed

variable {c : Cursor} {lead rest : List Char} {d : Char} {comments : List Token}

theorem start (h : m.hooks.OnlyDirectives) (hc : s.enter c = s) (hcode : s.region = .code)
    (hstart : s.startOfLine = true) (hrest : c.rest = d :: rest) (hd : isBlank d = false)
    (htrigger : m.hooks.contains d = true) : m.Directed c s [] d rest [] where
  rest_eq := hrest
  isLead := .nil
  ink := hd
  trigger := htrigger
  read := by
    have hstop : c.pos + byteLength (d :: rest) = byteLength c.line := by
      rw [c.pos_eq, ← hrest, ← byteLength_append]
      rfl
    rw [lexFrom_of_trigger h hc hcode hstart hrest hd htrigger, hstop]
    rfl
  transparent := by simp
  hookless := fun c' _ hrest' _ => by rw [m.hookless.lexFrom_of_end s hrest']

theorem behind_blanks {gap more : List Char} (hc : s.enter c = s) (hgap : gap ≠ [])
    (hblank : ∀ d ∈ gap, isBlank d = true) (hrest : c.rest = gap ++ more)
    (h : m.Directed (c.startToken.take gap.length) s lead d rest comments) :
    m.Directed c s (gap ++ lead) d rest comments where
  rest_eq := by
    have hmore := h.rest_eq
    rw [Cursor.rest_take, Cursor.rest_startToken, hrest, List.drop_left] at hmore
    rw [hrest, hmore, List.append_assoc]
  isLead := h.isLead.blanks hblank
  ink := h.ink
  trigger := h.trigger
  read := by
    rw [m.lexFrom_of_blanks s hgap hblank hrest, hc, h.read, Cursor.pos_startToken_take hrest,
      byteLength_append, Nat.add_assoc, Cursor.line_take, Cursor.line_startToken]
  transparent := h.transparent
  hookless := fun c' hc' hrest' hpos => by
    rw [m.hookless.lexFrom_of_blanks s hgap hblank hrest', hc']
    refine h.hookless _ (s.enter_take (by simp [hrest', hgap]) (List.length_pos_iff.2 hgap)) ?_ ?_
    · rw [Cursor.rest_take, Cursor.rest_startToken, hrest', List.drop_left]
    · rw [Cursor.pos_startToken_take hrest', Cursor.pos_startToken_take hrest, hpos]

theorem behind_comment {text back : List Char} (hc : s.enter c = s) (hcode : s.region = .code)
    (hrest : c.rest = '/' :: '*' :: (text ++ back)) (hends : EndsInCloser text)
    (hfree : m.capture? c.startToken s = none)
    (h : m.Directed (c.startToken.take (2 + text.length)) s lead d rest comments) :
    m.Directed c s ('/' :: '*' :: (text ++ lead)) d rest
      (⟨.comment, '/' :: '*' :: text, c.pos, c.pos + (2 + byteLength text)⟩ :: comments) where
  rest_eq := by
    have hback := h.rest_eq
    rw [rest_take_opener hrest] at hback
    rw [hrest, hback]
    simp
  isLead := .comment hends h.isLead
  ink := h.ink
  trigger := h.trigger
  read := by
    rw [m.lexFrom_of_closed hc hcode hrest hends hfree, h.read, pos_take_opener hrest, byteLength_opener,
      byteLength_append, Nat.add_assoc, ← Nat.add_assoc 2, Cursor.line_take, Cursor.line_startToken]
    rfl
  transparent := List.forall_mem_cons.2 ⟨rfl, h.transparent⟩
  hookless := fun c' hc' hrest' hpos => by
    rw [m.hookless.lexFrom_of_closed hc' hcode hrest' hends (m.capture?_hookless _ _), hpos]
    refine congrArg _ (h.hookless _ (s.enter_take (by simp [hrest']) (by omega)) (rest_take_opener hrest') ?_)
    rw [pos_take_opener hrest', pos_take_opener hrest, hpos]

end Directed

/-- Where there is a directive, a lead lies before it. -/
theorem exists_directed (h : m.hooks.OnlyDirectives) (c : Cursor) (s : State) (hc : s.enter c = s)
    (hcode : s.region = .code) (hdirective : ∃ t ∈ (m.lexFrom c s).1, t.category = .directive) :
    ∃ lead d rest comments, m.Directed c s lead d rest comments := by
  induction c, s, hc using m.entered_induction with
  | atEnd c s _ hend =>
    rw [m.lexFrom_of_end s hend] at hdirective
    obtain ⟨t, ht, -⟩ := hdirective
    cases ht
  | blanks c s hc _ hblank ih =>
    rw [m.lexFrom_of_blank hc hblank] at hdirective
    obtain ⟨lead, d, rest, comments, hnext⟩ := ih hcode hdirective
    have hsplit := (leadingBlanks_append_trimLeading c.rest).symm
    exact ⟨_, d, rest, comments, hnext.behind_blanks hc hblank (fun _ => isBlank_of_mem_leadingBlanks) hsplit⟩
  | lexeme c s x hc hbehind hne hblank hx ih =>
    by_cases hfirst : x.category = .directive
    · obtain ⟨-, hstart, d, rest, hrest, htrigger⟩ := trigger_of_directive h (hx ▸ hfirst)
      have hd : isBlank d = false := by
        by_contra hd
        rw [← c.rest_startToken, hrest] at hblank
        simp [leadingBlanks, hd] at hblank
      exact ⟨[], d, rest, [], .start h hc hcode hstart hrest hd htrigger⟩
    · rw [m.lexFrom_of_lexeme hc hne hblank hx, List.exists_mem_cons_iff] at hdirective
      have hnext := hdirective.resolve_left hfirst
      obtain ⟨text, back, hrest, hends, hfree⟩ := closed_of_directive_behind h hcode hbehind hx hfirst hnext
      have hx' := hx.symm.trans (lexeme_of_closed (c := c.startToken) hcode hrest hends hfree)
      rw [hx', State.afterLexeme_of_transparent rfl hcode.symm] at ih hnext
      obtain ⟨lead, d, rest, comments, hdirected⟩ := ih hcode hnext
      exact ⟨_, d, rest, _, hdirected.behind_comment hc hcode hrest hends hfree⟩

/-! ## Lines -/

/-- Behind what is left of a comment, a line is read in code. -/
theorem lexLine_of_remainder (m : Mode) {front : List Char} (h : s.region.Remainder front)
    (back : List Char) :
    let s' := s.behindComment (m.indentationOf (front ++ back))
    ∃ c : Cursor, c.line = front ++ back ∧ c.rest = back ∧ c.pos = byteLength front ∧ s'.enter c = s' ∧
      (m.lexLine (front ++ back) s).1 = amidComment front ++ (m.lexFrom c s').1 ∧
      (front ++ back ≠ [] → (m.lexLine (front ++ back) s).2 = (m.lexFrom c s').2) := by
  intro s'
  cases hs : s.region with
  | code =>
    rw [hs] at h
    obtain rfl : front = [] := h
    have hs' : s' = s.atLineStart (m.indentationOf back) := by
      simp only [s', List.nil_append, State.behindComment, State.atLineStart, ← hs]
    rw [hs']
    refine ⟨m.cursor back, rfl, rfl, rfl, m.enter_cursor back s, ?_⟩
    by_cases hback : back = []
    · rw [hback, m.lexFrom_of_end _ rfl, List.append_nil, m.lexLine_nil]
      exact ⟨rfl, fun hne => absurd rfl hne⟩
    · rw [List.nil_append, m.lexLine_eq_lexFrom_cursor s hback]
      exact ⟨rfl, fun _ => rfl⟩
  | comment =>
    rw [hs] at h
    obtain ⟨c, hread, hrest, hline⟩ := lexLine_of_endsInCloser (m := m) hs h back
    have hmoved : c.atLineStart = false := Cursor.atLineStart_of_read (by rw [hread]; exact h.ne_nil)
    refine ⟨c, ?_, hrest, ?_, s'.enter_of_not_atLineStart hmoved, ?_⟩
    · rw [Cursor.line, hread, hrest]
    · rw [c.pos_eq, hread]
    · rw [hline, amidComment, if_neg h.trimmed.ne_nil]
      exact ⟨rfl, fun _ => rfl⟩
  | string quote =>
    rw [hs] at h
    cases h

/-- A line with a directive leaves no string, and no comment that is not closed, open from above. -/
theorem exists_remainder (h : m.hooks.OnlyDirectives) {line : List Char}
    (hdirective : ∃ t ∈ (m.lexLine line s).1, t.category = .directive) :
    ∃ front back, line = front ++ back ∧ s.region.Remainder front := by
  obtain ⟨t, ht, hcategory⟩ := hdirective
  have hne : line ≠ [] := by
    rintro rfl
    rw [m.lexLine_nil] at ht
    cases ht
  cases hs : s.region with
  | code => exact ⟨[], line, rfl, rfl⟩
  | comment =>
    by_cases hcloser : commentCloser <:+: line
    · exact exists_endsInCloser hcloser
    · rw [(lexLine_of_no_closer hs hcloser).1] at ht
      rw [category_of_mem_amidComment ht] at hcategory
      cases hcategory
  | string quote =>
    rw [m.lexLine_eq_lexFrom_cursor s hne] at ht
    exact absurd hcategory
      (not_directive_of_significant h _ _ (m.enter_cursor line s) (.inr ⟨quote, hs⟩) t ht)

/-- A line with a directive is a lead and the directive, and the tokens of the lead are the same without
hooks. -/
theorem lexLine_of_directive (h : m.hooks.OnlyDirectives) {line : List Char}
    (hdirective : ∃ t ∈ (m.lexLine line s).1, t.category = .directive) :
    ∃ lead d rest comments, line = lead ++ d :: rest ∧ s.region.Leads lead ∧ isBlank d = false ∧
      m.hooks.contains d = true ∧
      (m.lexLine line s).1 = comments ++ [⟨.directive, d :: rest, byteLength lead, byteLength line⟩] ∧
      (∀ t ∈ comments, t.category = .comment) ∧ (m.hookless.lexLine lead s).1 = comments ∧
      (m.lexLine line s).2.region = .code ∧ (m.lexLine line s).2.nesting = s.nesting.settle false := by
  obtain ⟨front, back, rfl, hfront⟩ := exists_remainder h hdirective
  obtain ⟨c, hcline, hrest, hpos, hc, htokens, hfinal⟩ := m.lexLine_of_remainder hfront back
  have hamid : ∀ t ∈ amidComment front, t.category = .comment := fun _ => category_of_mem_amidComment
  have hbehind : ∃ t ∈ (m.lexFrom c (s.behindComment (m.indentationOf (front ++ back)))).1,
      t.category = .directive := by
    obtain ⟨t, ht, hcategory⟩ := hdirective
    rw [htokens, List.mem_append] at ht
    refine ⟨t, ht.resolve_left fun hin => ?_, hcategory⟩
    rw [hamid t hin] at hcategory
    cases hcategory
  obtain ⟨more, d, rest, comments, hdirected⟩ := exists_directed h c _ hc rfl hbehind
  have hback : back = more ++ d :: rest := hrest.symm.trans hdirected.rest_eq
  have hline : front ++ back = (front ++ more) ++ d :: rest := by rw [hback, List.append_assoc]
  have hindentation : m.indentationOf (front ++ back) = m.indentationOf (front ++ more) := by
    rw [indentationOf, indentationOf, hline, leadingBlanks_append fun _ => ?_]
    simp [leadingBlanks, hdirected.ink]
  obtain ⟨c', -, hrest', hpos', hc', htokens', -⟩ := m.hookless.lexLine_of_remainder hfront more
  have hne : front ++ back ≠ [] := by simp [hline]
  have hlead : (m.hookless.lexLine (front ++ more) s).1 = amidComment front ++ comments := by
    have hcomments := hdirected.hookless c'
    rw [hindentation] at hcomments
    exact htokens'.trans (congrArg _ (hcomments hc' hrest' (hpos'.trans hpos.symm)))
  rw [hdirected.read] at htokens hfinal
  rw [hpos, hcline, ← byteLength_append, ← List.append_assoc] at htokens
  rw [hfinal hne]
  have hleads : s.region.Leads (front ++ more) := ⟨front, more, rfl, hfront, hdirected.isLead⟩
  exact ⟨front ++ more, d, rest, amidComment front ++ comments, hline, hleads, hdirected.ink,
    hdirected.trigger, htokens, List.forall_mem_append.2 ⟨hamid, hdirected.transparent⟩, hlead, rfl, rfl⟩

/-- Directives are recognised exactly, and hooks change nothing else, in a mode whose hooks are all
directives. A line has a directive just if a trigger stands behind what is left of a comment, blanks, and
comments that are closed. A line without one is read as without hooks. A directive takes the rest of its
line; only comments lie before it, and they are those of the same text without hooks; behind it is code, and
of the nesting no more than an alignment is decided. -/
theorem lexLine_directive (m : Mode) (h : m.hooks.OnlyDirectives) (s : State) (line : List Char) :
    ((∃ t ∈ (m.lexLine line s).1, t.category = .directive) ↔
      ∃ lead d rest, line = lead ++ d :: rest ∧ s.region.Leads lead ∧ isBlank d = false ∧
        m.hooks.contains d = true) ∧
    ((∀ t ∈ (m.lexLine line s).1, t.category ≠ .directive) → m.lexLine line s = m.hookless.lexLine line s) ∧
    ∀ t ∈ (m.lexLine line s).1, t.category = .directive →
      ∃ lead d rest comments, line = lead ++ d :: rest ∧ s.region.Leads lead ∧ isBlank d = false ∧
        m.hooks.contains d = true ∧ t = ⟨.directive, d :: rest, byteLength lead, byteLength line⟩ ∧
        (m.lexLine line s).1 = comments ++ [t] ∧ (∀ t' ∈ comments, t'.category = .comment) ∧
        (m.hookless.lexLine lead s).1 = comments ∧ (m.lexLine line s).2.region = .code ∧
        (m.lexLine line s).2.nesting = s.nesting.settle false := by
  refine ⟨⟨fun hdirective => ?_, ?_⟩, fun hnone => ?_, fun t ht hdirective => ?_⟩
  · obtain ⟨lead, d, rest, -, hline, hlead, hd, htrigger, -⟩ := lexLine_of_directive h hdirective
    exact ⟨lead, d, rest, hline, hlead, hd, htrigger⟩
  · rintro ⟨_, d, rest, rfl, ⟨front, more, rfl, hfront, hmore⟩, hd, htrigger⟩
    obtain ⟨c, -, hrest, -, hc, htokens, -⟩ := m.lexLine_of_remainder hfront (more ++ d :: rest)
    obtain ⟨t, ht, hdirective⟩ := exists_directive_of_lead h hmore hd htrigger rfl rfl hc hrest
    rw [List.append_assoc, htokens]
    exact ⟨t, List.mem_append_right _ ht, hdirective⟩
  · by_cases hline : line = []
    · rw [hline, m.lexLine_nil, m.hookless.lexLine_nil]
    · rw [m.lexLine_eq_lexFrom_cursor s hline] at hnone ⊢
      rw [m.hookless.lexLine_eq_lexFrom_cursor s hline]
      exact lexFrom_hookless h _ _ (m.enter_cursor line s) hnone
  · obtain ⟨lead, d, rest, comments, hline, hlead, hd, htrigger, htokens, hcomments, hfinal⟩ :=
      lexLine_of_directive h ⟨t, ht, hdirective⟩
    -- of the tokens of the line only the last is a directive
    have hlast : t = ⟨.directive, d :: rest, byteLength lead, byteLength line⟩ := by
      rw [htokens, List.mem_append, List.mem_singleton] at ht
      refine ht.resolve_left fun hin => ?_
      rw [hcomments t hin] at hdirective
      cases hdirective
    exact ⟨lead, d, rest, comments, hline, hlead, hd, htrigger, hlast, hlast ▸ htokens, hcomments, hfinal⟩

/-- What is left of a comment, a closed comment and a blank may lie before a directive. -/
theorem lexLine_directive_behind_comment :
    let m : Mode := { bare with hooks := .shader }
    let s := (m.lexLine ['/', '*'] (m.start 0)).2
    let lead := ['a', '*', '/', '/', '*', '*', '/', ' ']
    m.hooks.OnlyDirectives ∧ s.region = .comment ∧ s.region.Leads lead ∧
      (∃ t ∈ (m.lexLine (lead ++ ['#', 'x']) s).1, t.category = .directive) ∧
      (m.lexLine (lead ++ ['#', 'x']) s).2.region = .code := by
  intro m s lead
  have hhooks : m.hooks.OnlyDirectives := HookTable.onlyDirectives_shader
  have hs : s.region = .comment := by decide +kernel
  have hends : EndsInCloser ['a', '*', '/'] := ⟨['a'], rfl, by decide⟩
  have hclosed : EndsInCloser ['*', '/'] := ⟨[], rfl, by decide⟩
  have hlead : s.region.Leads lead := by
    rw [hs]
    exact ⟨_, _, rfl, hends, .comment hclosed (.blank (by decide) .nil)⟩
  have htrigger : m.hooks.contains '#' = true := by decide +kernel
  obtain ⟨hiff, -, hread⟩ := m.lexLine_directive hhooks s (lead ++ ['#', 'x'])
  have hdirective := hiff.2 ⟨lead, '#', ['x'], rfl, hlead, by decide, htrigger⟩
  obtain ⟨t, ht, hcategory⟩ := hdirective
  obtain ⟨-, -, -, -, -, -, -, -, -, -, -, -, hregion, -⟩ := hread t ht hcategory
  exact ⟨hhooks, hs, hlead, ⟨t, ht, hcategory⟩, hregion⟩

end Mode

end ShaderText
