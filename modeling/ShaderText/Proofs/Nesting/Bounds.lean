/-
How far in levels stand. Where lines are indented and tokens stand below a limit, so are the levels that
they open, and so is a line behind a closed bracket; the root stays what it is. With a limit of at most
2^63 every count is read as the number that it is, no level but the root is indented by a negative
number, and the columns that are proposed are not negative and at most one unit beyond the limit.
-/
import ShaderText.Proofs.Nesting.Alignment
import ShaderText.Proofs.Nesting.Statements

namespace ShaderText

/-! ## Below a limit -/

/-- The event is the start of a line indented below the limit, or a token at a column below it. -/
def Event.Below (limit : Nat) : Event → Prop
  | line indented => indented < limit
  | token _ column => column < limit

instance (limit : Nat) : ∀ e : Event, Decidable (e.Below limit)
  | .line indented => inferInstanceAs (Decidable (indented < limit))
  | .token _ column => inferInstanceAs (Decidable (column < limit))

/-- The level is indented by at least 0 and below the limit, and its opener stands below the limit. -/
structure Level.Below (limit : Nat) (l : Level) : Prop where
  nonneg : 0 ≤ l.indented
  indented : l.indented < limit
  column : l.column < limit

theorem Level.below_opened {limit column indented : Nat} (hlimit : 2 * limit ≤ UInt64.size)
    (hcolumn : column < limit) (hindented : indented < limit) (kind : LevelKind) :
    (Level.opened indented column kind).Below limit := by
  have hlt : 2 * indented < UInt64.size := by omega
  have hsigned : (Level.opened indented column kind).indented = indented := by
    rw [Level.opened, signed_of_lt hlt]
  refine ⟨?_, ?_, hcolumn⟩
  · rw [hsigned]
    omega
  · rw [hsigned]
    omega

theorem Level.Below.settle {limit : Nat} {l : Level} (h : l.Below limit) (b : Bool) :
    (l.settle b).Below limit :=
  ⟨h.nonneg, h.indented, h.column⟩

namespace Nesting

/-- The line's indentation behind a bracket that is closed, and behind anything else. -/
theorem indented_close (n : Nesting) (indented : Nat) :
    (n.close indented).2 = indented ∨ ∃ l ∈ n.inner, (n.close indented).2 = l.indented.toNat := by
  obtain ⟨root, _ | ⟨l, ls⟩⟩ := n
  · exact .inl rfl
  · cases hkind : l.kind with
    | top => exact .inl (by simp [close, pop?, hkind, LevelKind.isBracket])
    | statement => exact .inl (by simp [close, pop?, hkind, LevelKind.isBracket])
    | bracket b =>
      exact .inr ⟨l, List.mem_cons_self .., by simp [close, pop?, hkind, LevelKind.isBracket]⟩

/-- Behind a token the line is indented as before, or as the line of an opener. -/
theorem indented_update (n : Nesting) (signal : Option Signal) (column indented : Nat) :
    (n.update signal column indented).2 = indented ∨
      ∃ l ∈ n.inner, (n.update signal column indented).2 = l.indented.toNat := by
  unfold update
  dsimp only
  split
  · exact .inl rfl
  · unfold closeBrace
    dsimp only
    split
    · rcases n.dropStatements.indented_close indented with heq | ⟨l, hl, heq⟩
      · exact .inl heq
      · exact .inr ⟨l, (List.dropWhile_suffix Level.isStatement).subset hl, heq⟩
    · exact .inl rfl
  · split
    · exact n.indented_close indented
    · exact .inl rfl
  · split
    · exact n.indented_close indented
    · exact .inl rfl
  · split
    · exact n.indented_close indented
    · exact .inl rfl
  · exact .inl rfl

/-! ## Statements -/

/-- Dropping statements gets to something else. -/
theorem kind_top_dropStatements {n : Nesting} (h : n.root.kind ≠ .statement) :
    n.dropStatements.top.kind ≠ .statement := by
  obtain ⟨root, ls⟩ := n
  induction ls with
  | nil => exact h
  | cons l ls ih =>
    by_cases hl : l.kind = .statement
    · have hdrop := dropStatements_push hl ⟨root, ls⟩
      rw [push] at hdrop
      rw [hdrop]
      exact ih h
    · rw [dropStatements_of_kind_top (n := ⟨root, l :: ls⟩) hl]
      exact hl

/-- A closing brace leaves no statement innermost. -/
theorem kind_top_closeBrace {n : Nesting} (h : n.root.kind ≠ .statement) (indented : Nat) :
    (n.closeBrace indented).1.top.kind ≠ .statement := by
  have hroot (n : Nesting) : (n.close indented).1.root = n.root := by
    obtain ⟨root, _ | ⟨l, ls⟩⟩ := n <;> rfl
  unfold closeBrace
  dsimp only
  split
  · refine kind_top_dropStatements ?_
    rw [hroot]
    exact h
  · exact kind_top_dropStatements h

/-- From the root inwards, a statement stands on the root, on a brace or on another statement. -/
theorem WellFormed.isChain_levels {n : Nesting} (h : n.WellFormed) :
    n.levels.IsChain fun below above => above.kind = .statement →
      below.kind = .top ∨ below.kind = .bracket .brace ∨ below.kind = .statement := by
  refine List.isChain_cons.2 ⟨fun l _ _ => .inl h.root, List.isChain_reverse.2 ?_⟩
  refine h.stands.imp fun above below hstands hstatement => ?_
  cases hkind : below.kind with
  | top => exact .inl rfl
  | statement => exact .inr (.inr rfl)
  | bracket b => exact .inr (.inl (by rw [hstands hstatement b hkind]))

/-! ## Nestings below a limit -/

/-- The nesting is well formed with this root, and all other levels are below the limit. -/
structure Within (root : Level) (limit : Nat) (n : Nesting) : Prop where
  wellFormed : n.WellFormed
  root : n.root = root
  inner : ∀ l ∈ n.inner, l.Below limit

variable {root : Level} {limit : Nat} {n : Nesting}

theorem Within.settle (hroot : root.aligned.isSome = true) (h : n.Within root limit) (b : Bool) :
    (n.settle b).Within root limit := by
  obtain ⟨root', _ | ⟨l, ls⟩⟩ := n
  · obtain rfl : root' = root := h.root
    obtain ⟨aligned, haligned⟩ := Option.isSome_iff_exists.1 hroot
    rwa [settle_of_aligned (n := ⟨root', []⟩) haligned]
  · obtain ⟨hstands, hls⟩ := List.isChain_cons.1 h.wellFormed.stands
    obtain ⟨hnested, hnesteds⟩ := List.forall_mem_cons.1 h.wellFormed.nested
    obtain ⟨hl, hbelow⟩ := List.forall_mem_cons.1 h.inner
    refine ⟨⟨h.wellFormed.root, ?_, List.isChain_cons.2 ⟨hstands, hls⟩⟩, h.root, ?_⟩
    · exact List.forall_mem_cons.2 ⟨hnested, hnesteds⟩
    · exact List.forall_mem_cons.2 ⟨hl.settle b, hbelow⟩

theorem Within.update (hlimit : 2 * limit ≤ UInt64.size) (h : n.Within root limit)
    (signal : Option Signal) {column indented : Nat} (hcolumn : column < limit)
    (hindented : indented < limit) : (n.update signal column indented).1.Within root limit := by
  have hwellFormed := wellFormed_update h.wellFormed signal column indented
  rcases n.update_cases signal column indented with ⟨kind, heq⟩ | ⟨ls, hls, heq⟩
  · rw [heq] at hwellFormed ⊢
    have hopened := Level.below_opened hlimit hcolumn hindented kind
    exact ⟨hwellFormed, h.root, List.forall_mem_cons.2 ⟨hopened, h.inner⟩⟩
  · rw [heq] at hwellFormed ⊢
    exact ⟨hwellFormed, h.root, fun l hl => h.inner l (hls.subset hl)⟩

/-! ## Proposals -/

theorem proposal_of_aligned (hkind : n.top.kind ≠ .statement) (haligned : n.top.aligned = some true)
    (first : Option Char) (unit : Nat) :
    n.proposal first unit = signed n.top.column +
      if first.isSome && first == n.top.kind.closeChar? then 0 else 1 := by
  simp only [proposal, if_neg hkind, if_pos haligned]

/-- Directly in the root every line is indented one unit further in than the root. -/
theorem proposal_of_isRoot (hn : n.isRoot = true) (hkind : n.root.kind = .top)
    (haligned : n.root.aligned = some false) (first : Option Char) (unit : Nat) :
    n.proposal first unit = n.root.indented + signed unit := by
  have htop : n.top = n.root := by rw [top, List.isEmpty_iff.1 hn, List.headD_nil]
  have hcloses : (first.isSome && first == n.root.kind.closeChar?) = false := by
    rw [hkind]
    cases first <;> rfl
  rw [proposal_of_not_aligned (by simp [htop, hkind]) (by simp [htop, haligned]), htop, hcloses,
    if_neg Bool.false_ne_true]

/-- No proposal is negative, and none is more than one unit beyond the limit. -/
theorem Within.proposal {base unit : Nat} (hlimit : 2 * limit ≤ UInt64.size) (hbase : base < limit)
    (hunit : 2 * unit < UInt64.size) (h : n.Within ⟨(base : Int) - unit, 0, .top, some false⟩ limit)
    (first : Option Char) :
    0 ≤ n.proposal first unit ∧ n.proposal first unit ≤ limit + unit := by
  have hsigned : signed unit = unit := signed_of_lt hunit
  cases hn : n.inner with
  | nil =>
    have hroot : n.isRoot = true := List.isEmpty_iff.2 hn
    rw [proposal_of_isRoot hroot h.wellFormed.root (by rw [h.root]), h.root, hsigned]
    dsimp only
    omega
  | cons l ls =>
    have htop : n.top = l := by rw [top, hn, List.headD_cons]
    have hl : n.top.Below limit := by
      rw [htop]
      exact h.inner l (by simp [hn])
    have hcolumn : signed n.top.column = n.top.column := signed_of_lt (by have := hl.column; omega)
    obtain ⟨hnonneg, hindented, hlt⟩ := hl
    by_cases hkind : n.top.kind = .statement
    · rw [proposal_of_statement hkind, hsigned]
      split <;> omega
    · by_cases haligned : n.top.aligned = some true
      · rw [proposal_of_aligned hkind haligned, hcolumn]
        split <;> omega
      · rw [proposal_of_not_aligned hkind haligned, hsigned]
        split <;> omega

end Nesting

/-! ## Layouts below a limit -/

/-- The nesting is below the limit, and so is the indentation of the line. -/
structure Layout.Within (root : Level) (limit : Nat) (l : Layout) : Prop where
  nesting : l.nesting.Within root limit
  indented : l.indented < limit

/-- An event below the limit keeps a layout below it. -/
theorem Layout.Within.after {root : Level} {limit : Nat} (hlimit : 2 * limit ≤ UInt64.size)
    (hroot : root.aligned.isSome = true) {l : Layout} (h : l.Within root limit) {e : Event}
    (he : e.Below limit) : (l.after e).Within root limit := by
  cases e with
  | line indented => exact ⟨h.nesting.settle hroot false, he⟩
  | token signal column =>
    have hsettled := h.nesting.settle hroot true
    have hindented : ((l.nesting.settle true).update signal column l.indented).2 < limit := by
      rcases (l.nesting.settle true).indented_update signal column l.indented with heq | ⟨o, ho, heq⟩
      · rw [heq]
        exact h.indented
      · obtain ⟨hnonneg, hlt, -⟩ := hsettled.inner o ho
        omega
    exact ⟨hsettled.update hlimit signal he h.indented, hindented⟩

theorem Layout.Within.afterAll {root : Level} {limit : Nat} (hlimit : 2 * limit ≤ UInt64.size)
    (hroot : root.aligned.isSome = true) {l : Layout} (h : l.Within root limit) {es : List Event}
    (hes : ∀ e ∈ es, e.Below limit) : (l.afterAll es).Within root limit := by
  induction es generalizing l with
  | nil => exact h
  | cons e es ih =>
    obtain ⟨he, hes⟩ := List.forall_mem_cons.1 hes
    exact ih (h.after hlimit hroot he) hes

end ShaderText
