/-
Statements on a ground: the root, or a brace whose body starts on a new line. Outside brackets a first
token starts a statement on the ground, a block keyword in a statement starts another one on it, a
semicolon ends the innermost one, and an opening brace stands on all of them; its closing brace takes
them along, back to the ground. Groups of brackets in between change nothing.
-/
import ShaderText.Proofs.Nesting.Groups

namespace ShaderText

/-! ## Tokens outside brackets -/

/-- A token that goes on with a statement: one without a signal, a comma or a dot. -/
def goesOn : Option Signal → Bool
  | none | some .comma | some .dot => true
  | _ => false

/-- A token that goes on with a header: one that goes on with a statement, or a block keyword. -/
def goesOnInHeader (x : Option Signal) : Bool := goesOn x || x == some .blockKeyword

/-- Outside brackets all tokens satisfy `p`, and the brackets are parentheses and square brackets that
are nested correctly. -/
inductive Outside (p : Option Signal → Bool) : List (Option Signal) → Prop
  | nil : Outside p []
  | token {x : Option Signal} {xs : List (Option Signal)} : p x = true → Outside p xs →
      Outside p (x :: xs)
  | group {b : Bracket} {inside xs : List (Option Signal)} : b ≠ .brace → Balanced inside →
      Outside p xs → Outside p (some (.opening b) :: inside ++ some (.closing b) :: xs)

theorem goesOnInHeader_of_goesOn {x : Option Signal} (h : goesOn x = true) :
    goesOnInHeader x = true := by
  rw [goesOnInHeader, h, Bool.true_or]

/-- No brace stands first. -/
theorem Outside.head?_append_ne {p : Option Signal → Bool} {xs ys : List (Option Signal)}
    (h : Outside p xs) {x : Option Signal}
    (hbrace : x = some (.opening .brace) ∨ x = some (.closing .brace)) (hx : p x = false)
    (hys : ys.head? ≠ some x) : (xs ++ ys).head? ≠ some x := by
  cases h with
  | nil => exact hys
  | @token y xs hy _ =>
    rintro ⟨⟩
    rw [hx] at hy
    cases hy
  | @group b inside xs hb _ _ =>
    rintro ⟨⟩
    rcases hbrace with heq | heq
    · cases heq
      exact hb rfl
    · cases heq

theorem Outside.head?_ne {p : Option Signal → Bool} {xs : List (Option Signal)} (h : Outside p xs)
    {x : Option Signal} (hbrace : x = some (.opening .brace) ∨ x = some (.closing .brace))
    (hx : p x = false) : xs.head? ≠ some x := by
  rw [← List.append_nil xs]
  exact h.head?_append_ne hbrace hx nofun

/-- Tokens with these signals, wherever they stand on the line, lead from one layout to another. -/
inductive Layout.Takes : Layout → List (Option Signal) → Layout → Prop
  | nil (l : Layout) : Takes l [] l
  | cons {l l' : Layout} {x : Option Signal} {xs : List (Option Signal)} (column : Nat) :
      Takes (l.after (.token x column)) xs l' → Takes l (x :: xs) l'

namespace Layout.Takes

variable {l l' : Layout} {xs ys : List (Option Signal)}

theorem eq_of_nil (h : l.Takes [] l') : l' = l := by
  cases h
  rfl

theorem append_inv (h : l.Takes (xs ++ ys) l') : ∃ l'', l.Takes xs l'' ∧ l''.Takes ys l' := by
  induction xs generalizing l with
  | nil => exact ⟨l, .nil l, h⟩
  | cons x xs ih =>
    cases h with
    | cons column h =>
      obtain ⟨l'', hxs, hys⟩ := ih h
      exact ⟨l'', .cons column hxs, hys⟩

theorem exists_events (h : l.Takes xs l') : ∃ es, signalsOf es = xs ∧ l' = l.afterAll es := by
  induction h with
  | nil l => exact ⟨[], rfl, rfl⟩
  | @cons l l' x xs column _ ih =>
    obtain ⟨es, hes, hl'⟩ := ih
    exact ⟨.token x column :: es, congrArg (x :: ·) hes, hl'⟩

/-- Parentheses and square brackets only decide an alignment. -/
theorem group {b : Bracket} (hb : b ≠ .brace) {inside : List (Option Signal)} (hinside : Balanced inside)
    (h : l.Takes (some (.opening b) :: inside ++ [some (.closing b)]) l') :
    l' = ⟨l.nesting.settle true, (signed l.indented).toNat⟩ := by
  rw [List.cons_append] at h
  cases h with
  | cons column h =>
    obtain ⟨l'', hins, hclose⟩ := h.append_inv
    obtain ⟨es, hes, rfl⟩ := hins.exists_events
    cases hclose with
    | cons column' hclose =>
      cases hclose
      have hgroup := afterAll_group l column column' (b := b) (hes.symm ▸ hinside)
      rw [if_neg hb, List.cons_append, afterAll_cons, afterAll_append] at hgroup
      exact hgroup

/-- What tokens outside brackets keep, and groups too, all of them keep. -/
theorem outside {p : Option Signal → Bool} {P : Layout → Prop}
    (htoken : ∀ (l : Layout) (x : Option Signal) (column : Nat), p x = true → P l →
      P (l.after (.token x column)))
    (hgroup : ∀ l : Layout, P l → P ⟨l.nesting.settle true, (signed l.indented).toNat⟩)
    (hxs : Outside p xs) (h : l.Takes xs l') (hl : P l) : P l' := by
  induction hxs generalizing l with
  | nil =>
    cases h
    exact hl
  | token hx _ ih =>
    cases h with
    | cons column h => exact ih h (htoken l _ column hx hl)
  | @group b inside xs hb hinside _ ih =>
    rw [List.append_cons] at h
    obtain ⟨l'', hfront, hrest⟩ := h.append_inv
    rw [hfront.group hb hinside] at hrest
    exact ih hrest (hgroup l hl)

end Layout.Takes

namespace Nesting

/-! ## Grounds -/

/-- Statements may start on the innermost level, and what stands in it is not aligned. -/
structure Ground (n : Nesting) : Prop where
  opens : n.top.kind = .top ∨ n.top.kind = .bracket .brace
  aligned : n.top.aligned = some false

theorem settle_of_aligned {n : Nesting} {aligned : Bool} (h : n.top.aligned = some aligned)
    (aligned' : Bool) : n.settle aligned' = n := by
  obtain ⟨root, inner⟩ := n
  cases inner with
  | nil =>
    obtain ⟨indented, column, kind, _⟩ := root
    cases h
    rfl
  | cons l inner =>
    obtain ⟨indented, column, kind, _⟩ := l
    cases h
    rfl

theorem Ground.kind_ne {n : Nesting} (h : n.Ground) : n.top.kind ≠ .statement := by
  rcases h.opens with hkind | hkind <;> simp [hkind]

theorem Ground.opensStatement {n : Nesting} (h : n.Ground) (signal : Option Signal) :
    opensStatement n.top.kind signal = true := by
  rcases h.opens with hkind | hkind <;> rw [hkind] <;> rfl

/-- The nesting is a ground with so many statements on it, all of them started on lines indented by
`indented`. -/
inductive Piled (ground : Nesting) (indented : Nat) : Nat → Nesting → Prop
  | ground : Piled ground indented 0 ground
  | statement {k : Nat} {n : Nesting} {l : Level} : Piled ground indented k n → l.kind = .statement →
      l.indented = indented → Piled ground indented (k + 1) (n.push l)

/-- The nesting is an open brace on statements on the ground, whose body does not start on its own
line. -/
inductive Braced (ground : Nesting) (indented : Nat) : Nesting → Prop
  | brace {k : Nat} {n : Nesting} {l : Level} : Piled ground indented k n → l.kind = .bracket .brace →
      l.indented = indented → l.aligned ≠ some true → Braced ground indented (n.push l)

variable {ground n : Nesting} {indented k : Nat}

namespace Piled

theorem settle (hground : ground.Ground) (h : Piled ground indented k n) (aligned : Bool) :
    Piled ground indented k (n.settle aligned) := by
  cases h with
  | ground => exact (settle_of_aligned hground.aligned aligned).symm ▸ .ground
  | @statement k n l h hkind hindented =>
    exact .statement (l := l.settle aligned) h hkind hindented

theorem dropStatements (hground : ground.Ground) (h : Piled ground indented k n) :
    n.dropStatements = ground := by
  induction h with
  | ground => exact dropStatements_of_kind_top hground.kind_ne
  | statement _ hkind _ ih => rwa [dropStatements_push hkind]

theorem eq_ground (h : Piled ground indented 0 n) : n = ground := by
  cases h
  rfl

theorem kind_top (h : Piled ground indented (k + 1) n) : n.top.kind = .statement := by
  cases h with
  | statement _ hkind _ => exact hkind

theorem indented_top (h : Piled ground indented (k + 1) n) : n.top.indented = indented := by
  cases h with
  | statement _ _ hindented => exact hindented

/-- The innermost statement ends. -/
theorem close (h : Piled ground indented (k + 1) n) (indented' : Nat) :
    Piled ground indented k (n.close indented').1 := by
  cases h with
  | statement h _ _ => exact h

/-- A token that opens a statement opens it on the line it stands on. -/
theorem push_opened (hindented : 2 * indented < UInt64.size) (h : Piled ground indented k n)
    (column : Nat) : Piled ground indented (k + 1) (n.push (.opened indented column .statement)) := by
  refine .statement h rfl ?_
  rw [Level.opened, signed_of_lt hindented]

theorem openStatement (hindented : 2 * indented < UInt64.size) (h : Piled ground indented k n)
    (signal : Option Signal) (column : Nat) :
    ∃ k', Piled ground indented k' (n.openStatement signal column indented) := by
  unfold Nesting.openStatement
  split
  · exact ⟨k + 1, h.push_opened hindented column⟩
  · exact ⟨k, h⟩

end Piled

/-! ## What tokens do to the statements -/

/-- A token that goes on in a header opens a statement, or nothing. -/
theorem update_of_goesOnInHeader {x : Option Signal} (hx : goesOnInHeader x = true) (n : Nesting)
    (column indented : Nat) :
    n.update x column indented = (n.openStatement x column indented, indented) := by
  cases x with
  | none => rfl
  | some signal =>
    cases signal with
    | opening b => cases hx
    | closing b => cases hx
    | semicolon => cases hx
    | colon => cases hx
    | comma => rfl
    | dot => rfl
    | blockKeyword => rfl

theorem openStatement_of_goesOn {x : Option Signal} (hx : goesOn x = true)
    (hkind : n.top.kind = .statement) (column indented : Nat) :
    n.openStatement x column indented = n := by
  have hno : opensStatement n.top.kind x = false := by
    rw [hkind]
    cases x with
    | none => rfl
    | some signal =>
      cases signal with
      | blockKeyword => cases hx
      | _ => rfl
  rw [openStatement, hno]
  rfl

namespace Piled

variable {l l' : Layout} {x : Option Signal} {xs : List (Option Signal)}

/-- In a statement the tokens that go on with it change nothing. -/
theorem takes_goesOn (hground : ground.Ground) (h : Piled ground indented (k + 1) l.nesting)
    (hxs : Outside goesOn xs) (htakes : l.Takes xs l') : Piled ground indented (k + 1) l'.nesting := by
  refine htakes.outside (P := fun l => Piled ground indented (k + 1) l.nesting)
    (fun l x column hx h => ?_) (fun l h => h.settle hground true) hxs h
  have hsettled := h.settle hground true
  rw [Layout.after, update_of_goesOnInHeader (goesOnInHeader_of_goesOn hx),
    openStatement_of_goesOn hx hsettled.kind_top]
  exact hsettled

/-- A first token starts one statement, and the tokens behind it go on with that. -/
theorem takes_first (hground : ground.Ground) (hindented : 2 * indented < UInt64.size)
    (hx : goesOnInHeader x = true) (hxs : Outside goesOn xs)
    (h : Layout.Takes ⟨ground, indented⟩ (x :: xs) l') : Piled ground indented 1 l'.nesting := by
  cases h with
  | cons column h =>
    refine takes_goesOn hground ?_ hxs h
    rw [Layout.after, settle_of_aligned hground.aligned, update_of_goesOnInHeader hx,
      Nesting.openStatement, if_pos (hground.opensStatement x)]
    exact Piled.ground.push_opened hindented column

/-- The semicolon behind them ends a statement. -/
theorem takes_semicolon (hground : ground.Ground) (h : Piled ground indented (k + 1) l.nesting)
    (hxs : Outside goesOn xs) (htakes : l.Takes (xs ++ [some .semicolon]) l') :
    Piled ground indented k l'.nesting := by
  obtain ⟨l'', hfront, hlast⟩ := htakes.append_inv
  have hsettled := (h.takes_goesOn hground hxs hfront).settle hground true
  cases hlast with
  | cons column hlast =>
    cases hlast
    rw [Layout.after, update, if_pos hsettled.kind_top]
    exact hsettled.close _

/-- The tokens of a header start statements on the line they stand on. -/
theorem takes_header (hground : ground.Ground) (hindented : 2 * indented < UInt64.size)
    (h : Piled ground indented k l.nesting) (hl : l.indented = indented)
    (hxs : Outside goesOnInHeader xs) (htakes : l.Takes xs l') :
    (∃ k', Piled ground indented k' l'.nesting) ∧ l'.indented = indented := by
  refine htakes.outside (P := fun l => (∃ k, Piled ground indented k l.nesting) ∧ l.indented = indented)
    (fun l x column hx h => ?_) (fun l h => ?_) hxs ⟨⟨k, h⟩, hl⟩
  · obtain ⟨⟨k, h⟩, hl⟩ := h
    rw [Layout.after, update_of_goesOnInHeader hx, hl]
    exact ⟨(h.settle hground true).openStatement hindented x column, rfl⟩
  · obtain ⟨⟨k, h⟩, hl⟩ := h
    exact ⟨⟨k, h.settle hground true⟩, by rw [hl, signed_of_lt hindented, Int.toNat_natCast]⟩

/-- The opening brace behind a header stands on the statements of the header. -/
theorem takes_opening (hground : ground.Ground) (hindented : 2 * indented < UInt64.size)
    (h : Piled ground indented k l.nesting) (hl : l.indented = indented)
    (hxs : Outside goesOnInHeader xs) (htakes : l.Takes (xs ++ [some (.opening .brace)]) l') :
    Braced ground indented l'.nesting := by
  obtain ⟨l'', hheader, hlast⟩ := htakes.append_inv
  obtain ⟨⟨k, h⟩, hl⟩ := h.takes_header hground hindented hl hxs hheader
  cases hlast with
  | cons column hlast =>
    cases hlast
    have hbrace : (Level.opened indented column (.bracket .brace)).indented = indented := by
      rw [Level.opened, signed_of_lt hindented]
    rw [Layout.after, hl]
    exact .brace (h.settle hground true) rfl hbrace (by simp [Level.opened])

end Piled

namespace Braced

theorem settle (h : Braced ground indented n) : Braced ground indented (n.settle false) := by
  cases h with
  | @brace k n l h hkind hindented haligned =>
    refine .brace (l := l.settle false) h hkind hindented ?_
    cases hal : l.aligned with
    | none => simp [Level.settle, hal]
    | some aligned => simpa [Level.settle, hal] using haligned

/-- In a brace whose body starts on a new line, the body has a ground of its own. -/
theorem ground_settle (h : Braced ground indented n) : (n.settle false).Ground := by
  cases h with
  | @brace k n l h hkind hindented haligned =>
    refine ⟨.inr hkind, ?_⟩
    cases hal : l.aligned with
    | none => simp [Nesting.settle, mapTop, push, top, Level.settle, hal]
    | some aligned =>
      cases aligned with
      | true => exact absurd hal haligned
      | false => simp [Nesting.settle, mapTop, push, top, Level.settle, hal]

theorem indented_top (h : Braced ground indented n) : n.top.indented = indented := by
  cases h with
  | brace _ _ hindented _ => exact hindented

theorem kind_top (h : Braced ground indented n) : n.top.kind = .bracket .brace := by
  cases h with
  | brace _ hkind _ _ => exact hkind

theorem aligned_top (h : Braced ground indented n) : n.top.aligned ≠ some true := by
  cases h with
  | brace _ _ _ haligned => exact haligned

/-- The closing brace leads back to the ground, and the line goes on as that of the opening brace. -/
theorem takes_closing (hground : ground.Ground) (h : Braced ground indented n) {indented' : Nat}
    {l' : Layout} (htakes : Layout.Takes ⟨n, indented'⟩ [some (.closing .brace)] l') :
    l' = ⟨ground, indented⟩ := by
  cases htakes with
  | cons column htakes =>
    cases htakes
    cases h with
    | @brace k n l h hkind hindented _ =>
      have hover : Over (n.push l) ((n.push l).settle true) := .settled true
      rw [Layout.after, update_closing hkind hover, if_pos rfl, h.dropStatements hground, hindented]
      rfl

end Braced

/-! ## Proposals -/

theorem proposal_of_statement (h : n.top.kind = .statement) (first : Option Char) (unit : Nat) :
    n.proposal first unit = n.top.indented + if first = some '\x7b' then 0 else signed unit := by
  simp only [proposal, if_pos h]

theorem proposal_of_not_aligned (hkind : n.top.kind ≠ .statement) (haligned : n.top.aligned ≠ some true)
    (first : Option Char) (unit : Nat) :
    n.proposal first unit = n.top.indented +
      if first.isSome && first == n.top.kind.closeChar? then 0 else signed unit := by
  simp only [proposal, if_neg hkind, if_neg haligned]

/-- What stands on a ground is indented one unit further in than the line that opened it. -/
theorem Ground.proposal (h : n.Ground) {first : Option Char}
    (hfirst : n.top.kind = .bracket .brace → first ≠ some '\x7d') (unit : Nat) :
    n.proposal first unit = n.top.indented + signed unit := by
  have hcloses : (first.isSome && first == n.top.kind.closeChar?) = false := by
    rcases h.opens with hkind | hkind
    · rw [hkind]
      cases first <;> rfl
    · have hne : (first == n.top.kind.closeChar?) = false := by
        rw [hkind]
        exact beq_false_of_ne (hfirst hkind)
      rw [hne, Bool.and_false]
  rw [proposal_of_not_aligned h.kind_ne (by simp [h.aligned]), hcloses, if_neg Bool.false_ne_true]

/-- A closing brace stands as far in as the line of its opening brace. -/
theorem Braced.proposal_closing (h : Braced ground indented n) (unit : Nat) :
    n.proposal (some '\x7d') unit = indented := by
  have hcloses : (some '\x7d' == n.top.kind.closeChar?) = true := by
    rw [h.kind_top]
    rfl
  rw [proposal_of_not_aligned (by simp [h.kind_top]) h.aligned_top, h.indented_top, hcloses]
  simp

/-- A statement goes on one unit further in than it started. -/
theorem Piled.proposal_goesOn (h : Piled ground indented (k + 1) n) {first : Option Char}
    (hfirst : first ≠ some '\x7b') (unit : Nat) : n.proposal first unit = indented + signed unit := by
  rw [proposal_of_statement h.kind_top, if_neg hfirst, h.indented_top]

/-- A brace that opens the body of a statement stands as far in as the statement. -/
theorem Piled.proposal_opening (h : Piled ground indented (k + 1) n) (unit : Nat) :
    n.proposal (some '\x7b') unit = indented := by
  rw [proposal_of_statement h.kind_top, if_pos rfl, h.indented_top, Int.add_zero]

/-- A level that is not known to be aligned is treated like one that is not. -/
theorem proposal_settle_false (n : Nesting) (first : Option Char) (unit : Nat) :
    (n.settle false).proposal first unit = n.proposal first unit := by
  have htop : (n.settle false).top = n.top.settle false := top_mapTop n _
  by_cases hkind : n.top.kind = .statement
  · rw [proposal_of_statement hkind, proposal_of_statement (by rw [htop]; exact hkind), htop]
    rfl
  · cases haligned : n.top.aligned with
    | some aligned => rw [settle_of_aligned haligned]
    | none =>
      rw [proposal_of_not_aligned hkind (by simp [haligned]), proposal_of_not_aligned, htop]
      · rfl
      · rw [htop]
        exact hkind
      · simp [htop, Level.settle, haligned]

end Nesting

end ShaderText
