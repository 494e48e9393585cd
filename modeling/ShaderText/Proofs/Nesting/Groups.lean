/-
Groups of brackets. Between an opener and its closer stand significant tokens whose brackets are
nested correctly, and lines may start anywhere. Behind the closer the nesting is the one in which the
opener was read, its innermost level now aligned if that was not known; a brace takes the statements
that waited for it along. The line's indentation is that of the opener's line.

What is nested correctly leaves nothing but statements on the level in which it stands, and none in a
parenthesis or a square bracket.
-/
import Mathlib.Data.List.DropRight
import ShaderText.Proofs.Nesting.Layout
import ShaderText.Proofs.Nesting.Matching

namespace ShaderText

/-- Neither an opening nor a closing bracket. -/
def IsNoBracket (x : Option Signal) : Prop := ∀ b, x ≠ some (.opening b) ∧ x ≠ some (.closing b)

/-- Signals whose brackets are nested correctly. -/
inductive Balanced : List (Option Signal) → Prop
  | nil : Balanced []
  | other {x : Option Signal} {xs : List (Option Signal)} : IsNoBracket x → Balanced xs → Balanced (x :: xs)
  | group {b : Bracket} {inside xs : List (Option Signal)} : Balanced inside → Balanced xs →
      Balanced (some (.opening b) :: inside ++ some (.closing b) :: xs)

/-- What is nested correctly and ends in a closing bracket ends in a group. -/
theorem Balanced.eq_append_group {xs : List (Option Signal)} (h : Balanced xs) {b : Bracket}
    (hlast : xs.getLast? = some (some (.closing b))) :
    ∃ ys inside, xs = ys ++ some (.opening b) :: inside ++ [some (.closing b)] ∧ Balanced ys ∧
      Balanced inside := by
  induction h with
  | nil => cases hlast
  | @other x xs hx hxs ih =>
    cases xs with
    | nil =>
      rw [List.getLast?_singleton, Option.some.injEq] at hlast
      exact absurd hlast (hx b).2
    | cons y xs =>
      obtain ⟨ys, inside, heq, hys, hinside⟩ := ih (by rwa [List.getLast?_cons_cons] at hlast)
      exact ⟨x :: ys, inside, by rw [heq]; rfl, .other hx hys, hinside⟩
  | @group b' inside xs hinside hxs _ ih =>
    cases xs with
    | nil =>
      rw [List.getLast?_concat, Option.some.injEq, Option.some.injEq, Signal.closing.injEq] at hlast
      subst hlast
      exact ⟨[], inside, rfl, .nil, hinside⟩
    | cons y xs =>
      rw [List.getLast?_append_of_ne_nil _ (List.cons_ne_nil _ _), List.getLast?_cons_cons] at hlast
      obtain ⟨ys, inside', heq, hys, hinside'⟩ := ih hlast
      exact ⟨some (.opening b') :: inside ++ some (.closing b') :: ys, inside',
        by rw [heq]; simp, .group hinside hys, hinside'⟩

namespace Nesting

/-! ## Statements on a base -/

/-- The nesting is `base`, whose innermost level may have its alignment decided, with statements on
it. -/
inductive Over (base : Nesting) : Nesting → Prop
  | base : Over base base
  | settled (aligned : Bool) : Over base (base.settle aligned)
  | statement {n : Nesting} {l : Level} : Over base n → l.kind = .statement →
      opensStatement n.top.kind (some .blockKeyword) = true → Over base (n.push l)

namespace Over

variable {base n : Nesting}

theorem settle (h : Over base n) (aligned : Bool) : Over base (n.settle aligned) := by
  cases h with
  | base => exact .settled aligned
  | settled b => exact (settle_settle base b aligned).symm ▸ .settled b
  | @statement n l h hl hopens => exact .statement (l := l.settle aligned) h hl hopens

theorem openStatement (h : Over base n) (signal : Option Signal) (column indented : Nat) :
    Over base (n.openStatement signal column indented) := by
  unfold Nesting.openStatement
  split
  · rename_i hopens
    refine .statement h rfl ?_
    cases hkind : n.top.kind with
    | top => rfl
    | statement => rfl
    | bracket b =>
      rw [hkind] at hopens
      cases b with
      | brace => rfl
      | square => cases hopens
      | paren => cases hopens
  · exact h

theorem close_statement (hbase : base.top.kind ≠ .statement) (h : Over base n)
    (htop : n.top.kind = .statement) (indented : Nat) : Over base (n.close indented).1 := by
  cases h with
  | base => exact absurd htop hbase
  | settled b =>
    rw [Nesting.settle, top_mapTop] at htop
    exact absurd htop hbase
  | statement h _ _ => exact h

theorem dropStatements (hbase : base.top.kind ≠ .statement) (h : Over base n) :
    n.dropStatements = base ∨ ∃ aligned, n.dropStatements = base.settle aligned := by
  induction h with
  | base => exact .inl (dropStatements_of_kind_top hbase)
  | settled b => exact .inr ⟨b, dropStatements_of_kind_top (by rwa [Nesting.settle, top_mapTop])⟩
  | statement _ hl _ ih => rwa [dropStatements_push hl]

/-- A token that is no bracket opens and ends statements on the base. -/
theorem update (hbase : base.top.kind ≠ .statement) (h : Over base n) {signal : Option Signal}
    (hsignal : IsNoBracket signal) (column indented : Nat) :
    Over base (n.update signal column indented).1 := by
  have hother := h.openStatement signal column indented
  unfold Nesting.update
  dsimp only
  split
  · rename_i b
    exact absurd rfl (hsignal b).1
  · exact absurd rfl (hsignal .brace).2
  · rename_i b _
    exact absurd rfl (hsignal b).2
  · split
    · exact h.close_statement hbase ‹_› indented
    · exact hother
  · split
    · exact h.close_statement hbase ‹_› indented
    · exact hother
  · exact hother

/-- No statement stands on a parenthesis or a square bracket. -/
theorem eq_base {b : Bracket} (hbase : base.top.kind = .bracket b) (hb : b ≠ .brace)
    (h : Over base n) : n = base ∨ ∃ aligned, n = base.settle aligned := by
  induction h with
  | base => exact .inl rfl
  | settled aligned => exact .inr ⟨aligned, rfl⟩
  | @statement n l _ _ hopens ih =>
    have htop : n.top.kind = .bracket b := by
      rcases ih with rfl | ⟨aligned, rfl⟩
      · exact hbase
      · rwa [Nesting.settle, top_mapTop]
    rw [htop] at hopens
    cases b with
    | brace => exact absurd rfl hb
    | square => cases hopens
    | paren => cases hopens

end Over

/-! ## Closing a group -/

variable {outer n : Nesting} {l : Level}

theorem exists_push_of_settled
    (h : n = outer.push l ∨ ∃ aligned, n = (outer.push l).settle aligned) :
    ∃ l', n = outer.push l' ∧ l'.kind = l.kind ∧ l'.indented = l.indented := by
  rcases h with rfl | ⟨aligned, rfl⟩
  · exact ⟨l, rfl, rfl, rfl⟩
  · exact ⟨l.settle aligned, rfl, rfl, rfl⟩

theorem close_push {b : Bracket} (hl : l.kind = .bracket b) (indented : Nat) :
    (outer.push l).close indented = (outer, l.indented.toNat) := by
  simp [close, pop?, push, hl, LevelKind.isBracket]

/-- The closer removes the bracket that was opened in `outer` and what stands on it; a brace goes with
the statements that waited for it. -/
theorem update_closing {b : Bracket} (hl : l.kind = .bracket b) (h : Over (outer.push l) n)
    (column indented : Nat) :
    n.update (some (.closing b)) column indented =
      (if b = .brace then outer.dropStatements else outer, l.indented.toNat) := by
  have htop : (outer.push l).top.kind = .bracket b := hl
  by_cases hb : b = .brace
  · subst hb
    have hdrop := h.dropStatements (by rw [htop]; simp)
    obtain ⟨l', hn, hkind, hindented⟩ := exists_push_of_settled hdrop
    have hl' : l'.kind = .bracket .brace := hkind.trans hl
    simp only [update, closeBrace]
    rw [hn, top_push, if_pos hl', close_push hl', if_pos trivial, hindented]
  · obtain ⟨l', rfl, hkind, hindented⟩ := exists_push_of_settled (h.eq_base htop hb)
    have hl' : l'.kind = .bracket b := hkind.trans hl
    rw [if_neg hb, ← hindented, ← close_push hl' indented]
    cases b with
    | brace => exact absurd rfl hb
    | square => exact if_pos hl'
    | paren => exact if_pos hl'

end Nesting

namespace Layout

/-! ## Over a stretch of text -/

/-- The events of a group stand together, behind starts of lines. -/
theorem exists_group_of_signalsOf {b : Bracket} {inside xs : List (Option Signal)} {es : List Event}
    (h : signalsOf es = some (.opening b) :: inside ++ some (.closing b) :: xs) :
    ∃ lines column within column' behind,
      es = lines ++ ((.token (some (.opening b)) column :: within ++
        [.token (some (.closing b)) column']) ++ behind) ∧
      signalsOf lines = [] ∧ signalsOf within = inside ∧ signalsOf behind = xs := by
  rw [List.cons_append] at h
  obtain ⟨lines, column, es, rfl, hlines, hes⟩ := signalsOf_eq_cons h
  obtain ⟨within, behind, rfl, hwithin, hbehind⟩ := signalsOf_eq_append_iff.1 hes
  obtain ⟨lines', column', behind, rfl, hlines', hbehind⟩ := signalsOf_eq_cons hbehind
  refine ⟨lines, column, within ++ lines', column', behind, by simp, hlines, ?_, hbehind⟩
  rw [signalsOf_append, hwithin, hlines', List.append_nil]

theorem over_afterAll_of_no_signal {base : Nesting} {l : Layout} {es : List Event}
    (h : base.Over l.nesting) (hes : signalsOf es = []) : base.Over (l.afterAll es).nesting := by
  rcases nesting_afterAll_of_no_signal (l := l) hes with heq | heq
  · rwa [heq]
  · rw [heq]
    exact h.settle false

/-- The layout behind a group of which it is known what its inside leaves. -/
theorem afterAll_group_of_over {b : Bracket} (l : Layout) (column column' : Nat) (es : List Event)
    (hinside : ∀ (base : Nesting) (l' : Layout), base.top.kind ≠ .statement → base.Over l'.nesting →
      base.Over (l'.afterAll es).nesting) :
    l.afterAll (.token (some (.opening b)) column :: es ++ [.token (some (.closing b)) column']) =
      ⟨if b = .brace then (l.nesting.settle true).dropStatements else l.nesting.settle true,
        (signed l.indented).toNat⟩ := by
  have hopened : (Nesting.push (l.nesting.settle true) (.opened l.indented column (.bracket b))).Over
      (l.after (.token (some (.opening b)) column)).nesting := .base
  have hbehind := (hinside _ _ (by simp [Nesting.top_push, Level.opened]) hopened).settle true
  rw [List.cons_append, afterAll_cons, afterAll_append, afterAll_cons, afterAll_nil, after,
    Nesting.update_closing rfl hbehind]
  simp only [Level.opened]

/-- Events whose brackets are nested correctly leave statements on the level in which they stand. -/
theorem over_afterAll {xs : List (Option Signal)} (hxs : Balanced xs) {base : Nesting}
    (hbase : base.top.kind ≠ .statement) {l : Layout} (h : base.Over l.nesting) {es : List Event}
    (hes : signalsOf es = xs) : base.Over (l.afterAll es).nesting := by
  induction hxs generalizing base l es with
  | nil => exact over_afterAll_of_no_signal h hes
  | @other x xs hx _ ih =>
    obtain ⟨lines, column, es, rfl, hlines, hes⟩ := signalsOf_eq_cons hes
    rw [afterAll_append, afterAll_cons]
    refine ih hbase ?_ hes
    exact ((over_afterAll_of_no_signal h hlines).settle true).update hbase hx column _
  | @group b inside xs _ _ ihinside ih =>
    obtain ⟨lines, column, within, column', behind, rfl, hlines, hwithin, hbehind⟩ :=
      exists_group_of_signalsOf hes
    have hgroup := afterAll_group_of_over (b := b) (l.afterAll lines) column column' within
      fun base l' hbase h => ihinside hbase h hwithin
    rw [afterAll_append, afterAll_append, hgroup]
    have hsettled := (over_afterAll_of_no_signal h hlines).settle true
    refine ih hbase ?_ hbehind
    dsimp only
    split
    · rcases hsettled.dropStatements hbase with heq | ⟨aligned, heq⟩
      · exact heq ▸ .base
      · exact heq ▸ .settled aligned
    · exact hsettled

/-- Behind a group the nesting is the one in which the opener was read, aligned now, and the line is
indented like the opener's; a brace takes the statements along that waited for it. -/
theorem afterAll_group {b : Bracket} (l : Layout) (column column' : Nat) {es : List Event}
    (hes : Balanced (signalsOf es)) :
    l.afterAll (.token (some (.opening b)) column :: es ++ [.token (some (.closing b)) column']) =
      ⟨if b = .brace then (l.nesting.settle true).dropStatements else l.nesting.settle true,
        (signed l.indented).toNat⟩ :=
  afterAll_group_of_over l column column' es fun _ _ hbase h => over_afterAll hes hbase h rfl

/-- A closing brace at the end leaves no statement on the level in which all of it stands. -/
theorem nesting_afterAll_of_closing_brace {base : Nesting} (hbase : base.top.kind ≠ .statement)
    {l : Layout} (h : base.Over l.nesting) {es : List Event} (hes : Balanced (signalsOf es))
    (hlast : (signalsOf es).getLast? = some (some (.closing .brace))) :
    (l.afterAll es).nesting = base ∨ ∃ aligned, (l.afterAll es).nesting = base.settle aligned := by
  obtain ⟨ys, inside, heq, hys, hinside⟩ := hes.eq_append_group hlast
  rw [List.append_assoc] at heq
  obtain ⟨es, group, rfl, hfront, hgroup⟩ := signalsOf_eq_append_iff.1 heq
  obtain ⟨lines, column, within, column', behind, rfl, hlines, hwithin, hbehind⟩ :=
    exists_group_of_signalsOf hgroup
  -- behind the brace stand starts of lines alone, and its group leaves no statement on the base
  rw [afterAll_append, afterAll_append, afterAll_append,
    afterAll_group _ column column' (hwithin.symm ▸ hinside), if_pos rfl]
  have hfront := over_afterAll_of_no_signal (over_afterAll hys hbase h hfront) hlines
  have hdropped := (hfront.settle true).dropStatements hbase
  rcases nesting_afterAll_of_no_signal hbehind with heq | heq
  · rw [heq]
    exact hdropped
  · rw [heq]
    rcases hdropped with heq | ⟨aligned, heq⟩
    · exact .inr ⟨false, by rw [heq]⟩
    · exact .inr ⟨aligned, by rw [heq, Nesting.settle_settle]⟩

end Layout

end ShaderText
