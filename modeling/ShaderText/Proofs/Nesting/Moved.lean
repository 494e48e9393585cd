/-
Nestings that are moved to the right. Where every line is indented by some more columns and every token
stands as many columns further right, every level is moved by as many, and so is every proposal. This is
so as long as no column comes to be too large for a signed number.
-/
import ShaderText.Proofs.Nesting.Bounds

namespace ShaderText

/-! ## Moving by columns -/

/-- The level opened so many columns further right. -/
def Level.moved (k : Nat) (l : Level) : Level := { l with indented := l.indented + k, column := l.column + k }

/-- The event so many columns further right. -/
def Event.moved (k : Nat) : Event → Event
  | line indented => .line (indented + k)
  | token signal column => .token signal (column + k)

@[simp] theorem Event.signal?_moved (k : Nat) (e : Event) : (e.moved k).signal? = e.signal? := by
  cases e <;> rfl

namespace Nesting

/-- All levels moved. Nothing opened the root, so of the root only the indentation is moved. -/
def moved (k : Nat) (n : Nesting) : Nesting :=
  ⟨{ n.root with indented := n.root.indented + k }, n.inner.map (Level.moved k)⟩

theorem top_moved_of_cons {n : Nesting} {l : Level} {ls : List Level} (h : n.inner = l :: ls) (k : Nat) :
    (n.moved k).top = n.top.moved k := by
  simp [top, moved, h]

@[simp] theorem kind_top_moved (n : Nesting) (k : Nat) : (n.moved k).top.kind = n.top.kind := by
  obtain ⟨root, _ | ⟨l, ls⟩⟩ := n <;> rfl

@[simp] theorem indented_top_moved (n : Nesting) (k : Nat) :
    (n.moved k).top.indented = n.top.indented + k := by
  obtain ⟨root, _ | ⟨l, ls⟩⟩ := n <;> rfl

@[simp] theorem aligned_top_moved (n : Nesting) (k : Nat) :
    (n.moved k).top.aligned = n.top.aligned := by
  obtain ⟨root, _ | ⟨l, ls⟩⟩ := n <;> rfl

theorem settle_moved (n : Nesting) (k : Nat) (b : Bool) : (n.moved k).settle b = (n.settle b).moved k := by
  obtain ⟨root, _ | ⟨l, ls⟩⟩ := n <;> rfl

theorem dropStatements_moved (n : Nesting) (k : Nat) :
    (n.moved k).dropStatements = n.dropStatements.moved k := by
  have hstatement : Level.isStatement ∘ Level.moved k = Level.isStatement := rfl
  simp only [dropStatements, moved, List.dropWhile_map, hstatement]

/-! ## What a token does to moved levels -/

section

variable {n : Nesting} {k indented : Nat}

theorem push_opened_moved (hindented : 2 * (indented + k) < UInt64.size) (column : Nat)
    (kind : LevelKind) :
    (n.moved k).push (.opened (indented + k) (column + k) kind) =
      (n.push (.opened indented column kind)).moved k := by
  have hsigned : signed (indented + k) = signed indented + k := by
    rw [signed_of_lt hindented, signed_of_lt (n := indented) (by omega), Int.natCast_add]
  simp only [push, moved, List.map_cons, Level.moved, Level.opened, hsigned]

theorem openStatement_moved (hindented : 2 * (indented + k) < UInt64.size) (signal : Option Signal)
    (column : Nat) :
    (n.moved k).openStatement signal (column + k) (indented + k) =
      (n.openStatement signal column indented).moved k := by
  rw [openStatement, openStatement, kind_top_moved]
  split
  · exact push_opened_moved hindented column .statement
  · rfl

theorem close_moved (h : ∀ l ∈ n.inner, 0 ≤ l.indented) :
    (n.moved k).close (indented + k) = ((n.close indented).1.moved k, (n.close indented).2 + k) := by
  obtain ⟨root, _ | ⟨l, ls⟩⟩ := n
  · rfl
  · have hnonneg : 0 ≤ l.indented := h l (List.mem_cons_self ..)
    have hline : (l.moved k).indented.toNat = l.indented.toNat + k :=
      show (l.indented + k).toNat = l.indented.toNat + k by omega
    simp only [close, pop?, moved, List.map_cons, hline]
    refine Prod.ext rfl ?_
    have hkind : (l.moved k).kind = l.kind := rfl
    rw [hkind]
    split <;> rfl

theorem closeBrace_moved (h : ∀ l ∈ n.inner, 0 ≤ l.indented) :
    (n.moved k).closeBrace (indented + k) =
      ((n.closeBrace indented).1.moved k, (n.closeBrace indented).2 + k) := by
  have hdrop : ∀ l ∈ n.dropStatements.inner, 0 ≤ l.indented :=
    fun l hl => h l ((List.dropWhile_suffix Level.isStatement).subset hl)
  unfold closeBrace
  dsimp only
  rw [dropStatements_moved, kind_top_moved, close_moved hdrop]
  split
  · rw [dropStatements_moved]
  · rfl

/-- A token that stands further right does the same to levels that are moved as far. -/
theorem update_moved (hindented : 2 * (indented + k) < UInt64.size) (h : ∀ l ∈ n.inner, 0 ≤ l.indented)
    (signal : Option Signal) (column : Nat) :
    (n.moved k).update signal (column + k) (indented + k) =
      ((n.update signal column indented).1.moved k, (n.update signal column indented).2 + k) := by
  have hother := openStatement_moved (n := n) hindented signal column
  have hclose : (n.moved k).close (indented + k) = _ := close_moved h
  unfold update
  dsimp only
  rw [kind_top_moved]
  split
  · rw [push_opened_moved hindented]
  · exact closeBrace_moved h
  · split
    · exact hclose
    · rw [hother]
  · split
    · exact hclose
    · rw [hother]
  · split
    · exact hclose
    · rw [hother]
  · rw [hother]

end

/-! ## Proposals -/

/-- What is proposed is moved with the levels. -/
theorem proposal_moved {n : Nesting} {k : Nat} (hroot : n.root.aligned = some false)
    (hcolumn : ∀ l ∈ n.inner, 2 * (l.column + k) < UInt64.size) (first : Option Char) (unit : Nat) :
    (n.moved k).proposal first unit = n.proposal first unit + k := by
  by_cases hkind : n.top.kind = .statement
  · rw [proposal_of_statement hkind, proposal_of_statement (by rwa [kind_top_moved]), indented_top_moved]
    omega
  · have hkind' : (n.moved k).top.kind ≠ .statement := by rwa [kind_top_moved]
    by_cases haligned : n.top.aligned = some true
    · -- the root is not aligned, so the level has an opener that is moved
      cases hn : n.inner with
      | nil =>
        have htop : n.top = n.root := by rw [top, hn, List.headD_nil]
        rw [htop, hroot] at haligned
        cases haligned
      | cons l ls =>
        have htop : n.top = l := by rw [top, hn, List.headD_cons]
        have hlt := hcolumn l (by simp [hn])
        have hmoved : (n.moved k).top.column = l.column + k := by
          rw [top_moved_of_cons hn, htop]
          rfl
        rw [proposal_of_aligned hkind haligned,
          proposal_of_aligned hkind' (by rwa [aligned_top_moved]), kind_top_moved, hmoved, htop,
          signed_of_lt hlt, signed_of_lt (n := l.column) (by omega)]
        omega
    · rw [proposal_of_not_aligned hkind haligned,
        proposal_of_not_aligned hkind' (by rwa [aligned_top_moved]), kind_top_moved, indented_top_moved]
      omega

end Nesting

/-! ## Layouts -/

namespace Layout

/-- The layout with the levels and the line moved. -/
def moved (k : Nat) (l : Layout) : Layout := ⟨l.nesting.moved k, l.indented + k⟩

variable {root : Level} {limit k : Nat}

/-- A moved event does to a moved layout what the event does to the layout. -/
theorem after_moved (hlimit : 2 * (limit + k) ≤ UInt64.size) (hroot : root.aligned.isSome = true)
    {l : Layout} (h : l.Within root limit) (e : Event) :
    (l.moved k).after (e.moved k) = (l.after e).moved k := by
  cases e with
  | line indented => simp only [after, moved, Event.moved, Nesting.settle_moved]
  | token signal column =>
    have hnonneg : ∀ level ∈ (l.nesting.settle true).inner, 0 ≤ level.indented :=
      fun level hlevel => ((h.nesting.settle hroot true).inner level hlevel).nonneg
    have hlt : 2 * (l.indented + k) < UInt64.size := by
      have := h.indented
      omega
    have hupdate := Nesting.update_moved hlt hnonneg signal column
    rw [← Nesting.settle_moved] at hupdate
    simp only [after, moved, Event.moved, hupdate]

theorem afterAll_moved (hlimit : 2 * (limit + k) ≤ UInt64.size) (hroot : root.aligned.isSome = true)
    {l : Layout} (h : l.Within root limit) {es : List Event} (hes : ∀ e ∈ es, e.Below limit) :
    (l.moved k).afterAll (es.map (Event.moved k)) = (l.afterAll es).moved k := by
  induction es generalizing l with
  | nil => rfl
  | cons e es ih =>
    obtain ⟨he, hes⟩ := List.forall_mem_cons.1 hes
    rw [List.map_cons, afterAll_cons, after_moved hlimit hroot h]
    exact ih (h.after (by omega) hroot he) hes

/-- Where a line starts first, it makes no difference how far the line above is indented. -/
theorem nesting_afterAll_congr {es : List Event} (h : ∀ e ∈ es.head?, e.signal? = none) (n : Nesting)
    (indented indented' : Nat) :
    (afterAll ⟨n, indented⟩ es).nesting = (afterAll ⟨n, indented'⟩ es).nesting := by
  cases es with
  | nil => rfl
  | cons e es =>
    cases e with
    | line _ => rfl
    | token signal column => cases h (.token signal column) rfl

end Layout

end ShaderText
