/-
Which brackets are open. The plain matcher keeps the open brackets on a stack: an opener goes on it,
a closer removes the innermost open bracket if that is of its kind, and everything else is ignored.
Over any signals, at any columns and on lines of any indentation, the brackets among the levels of a
nesting are exactly that stack, so statements never hide, close or reorder a bracket.

A closing parenthesis or square bracket looks at the innermost level alone. What makes this enough
is that no statement stands directly in such a bracket.
-/
import Mathlib.Data.List.Chain
import ShaderText.Nesting

namespace ShaderText

/-! ## The plain matcher -/

/-- The open brackets, the innermost first, behind a token with a signal. -/
def matchBracket (opened : List Bracket) : Option Signal → List Bracket
  | some (.opening b) => b :: opened
  | some (.closing b) => if opened.head? = some b then opened.tail else opened
  | _ => opened

/-- The open brackets, the innermost first, behind tokens with some signals. -/
def openBrackets (signals : List (Option Signal)) : List Bracket := signals.foldl matchBracket []

/-- The bracket that opened a level of this kind. -/
def LevelKind.bracket? : LevelKind → Option Bracket
  | bracket b => some b
  | top | statement => none

namespace Nesting

/-- The open brackets, the innermost first. -/
def brackets (n : Nesting) : List Bracket := n.inner.filterMap (·.kind.bracket?)

/-- A token as a nesting sees it: its signal and column, and the indentation of its line. -/
abbrev Sighting := Option Signal × Nat × Nat

/-- The nesting behind some tokens. -/
def updates (n : Nesting) (seen : List Sighting) : Nesting :=
  seen.foldl (fun n t => (n.update t.1 t.2.1 t.2.2).1) n

/-! ## Where statements stand -/

/-- A level may stand directly on another unless it is a statement in a parenthesis or a square
bracket. -/
def MayStandOn (l l' : Level) : Prop :=
  l.kind = .statement → ∀ b, l'.kind = .bracket b → b = .brace

/-- The root and nothing else is of the root's kind, and no statement stands directly in a
parenthesis or a square bracket. -/
structure WellFormed (n : Nesting) : Prop where
  root : n.root.kind = .top
  nested : ∀ l ∈ n.inner, l.kind ≠ .top
  stands : n.inner.IsChain MayStandOn

theorem wellFormed_ofRoot (indented : Int) : (ofRoot indented).WellFormed :=
  ⟨rfl, fun _ hl => absurd hl List.not_mem_nil, .nil⟩

theorem wellFormed_push {n : Nesting} (h : n.WellFormed) {l : Level} (hkind : l.kind ≠ .top)
    (hl : MayStandOn l n.top) : (n.push l).WellFormed := by
  refine ⟨h.root, List.forall_mem_cons.2 ⟨hkind, h.nested⟩,
    List.isChain_cons.2 ⟨fun l' hl' => ?_, h.stands⟩⟩
  have htop : n.top = l' := by
    rw [top, List.headD_eq_head?_getD, Option.mem_def.1 hl', Option.getD_some]
  exact htop ▸ hl

theorem wellFormed_close {n : Nesting} (h : n.WellFormed) (indented : Nat) :
    (n.close indented).1.WellFormed := by
  obtain ⟨root, _ | ⟨l, ls⟩⟩ := n
  · exact h
  · exact ⟨h.root, fun l' hl' => h.nested l' (List.mem_cons_of_mem _ hl'), h.stands.tail⟩

theorem wellFormed_dropStatements {n : Nesting} (h : n.WellFormed) : n.dropStatements.WellFormed :=
  have hsuffix := List.dropWhile_suffix (l := n.inner) Level.isStatement
  ⟨h.root, fun l hl => h.nested l (hsuffix.subset hl), h.stands.suffix hsuffix⟩

theorem wellFormed_closeBrace {n : Nesting} (h : n.WellFormed) (indented : Nat) :
    (n.closeBrace indented).1.WellFormed := by
  have hdrop := wellFormed_dropStatements h
  unfold closeBrace
  dsimp only
  split
  · exact wellFormed_dropStatements (wellFormed_close hdrop indented)
  · exact hdrop

theorem wellFormed_openStatement {n : Nesting} (h : n.WellFormed) (signal : Option Signal)
    (column indented : Nat) : (n.openStatement signal column indented).WellFormed := by
  unfold openStatement
  split
  · rename_i hopens
    refine wellFormed_push h (by simp [Level.opened]) fun _ b hb => ?_
    rw [hb] at hopens
    cases b with
    | brace => rfl
    | square => cases hopens
    | paren => cases hopens
  · exact h

/-- A token keeps every statement out of parentheses and square brackets. -/
theorem wellFormed_update {n : Nesting} (h : n.WellFormed) (signal : Option Signal)
    (column indented : Nat) : (n.update signal column indented).1.WellFormed := by
  have hother := wellFormed_openStatement h signal column indented
  unfold update
  dsimp only
  split
  · exact wellFormed_push h (by simp [Level.opened]) fun hstatement => by cases hstatement
  · exact wellFormed_closeBrace h indented
  · split
    · exact wellFormed_close h indented
    · exact hother
  · split
    · exact wellFormed_close h indented
    · exact hother
  · split
    · exact wellFormed_close h indented
    · exact hother
  · exact hother

/-! ## Brackets and statements -/

theorem brackets_openStatement (n : Nesting) (signal : Option Signal) (column indented : Nat) :
    (n.openStatement signal column indented).brackets = n.brackets := by
  unfold openStatement
  split <;> rfl

theorem brackets_dropStatements (n : Nesting) : n.dropStatements.brackets = n.brackets := by
  obtain ⟨root, ls⟩ := n
  simp only [brackets, dropStatements]
  induction ls with
  | nil => rfl
  | cons l ls ih =>
    rw [List.dropWhile_cons]
    split
    · rename_i hl
      have hkind : l.kind = .statement := by simpa [Level.isStatement] using hl
      rw [ih, List.filterMap_cons, hkind]
      rfl
    · rfl

/-- Closing a statement leaves the brackets, closing a bracket removes the innermost. -/
theorem brackets_close {n : Nesting} (h : n.WellFormed) (indented : Nat) :
    (n.close indented).1.brackets = if n.top.kind.isBracket then n.brackets.tail else n.brackets := by
  obtain ⟨root, _ | ⟨l, ls⟩⟩ := n
  · rw [show (⟨root, []⟩ : Nesting).top.kind = .top from h.root]
    rfl
  · have htop : (⟨root, l :: ls⟩ : Nesting).top = l := rfl
    have hbrackets : (⟨root, l :: ls⟩ : Nesting).brackets =
      l.kind.bracket?.toList ++ (⟨root, ls⟩ : Nesting).brackets := by
      rw [brackets, List.filterMap_cons]
      cases l.kind.bracket? <;> rfl
    rw [htop, hbrackets]
    cases l.kind <;> rfl

theorem dropStatements_of_kind_top {n : Nesting} (h : n.top.kind ≠ .statement) :
    n.dropStatements = n := by
  obtain ⟨root, _ | ⟨l, ls⟩⟩ := n
  · rfl
  · have hl : l.isStatement = false := beq_eq_false_iff_ne.2 h
    simp [dropStatements, hl]

theorem dropStatements_push {l : Level} (h : l.kind = .statement) (n : Nesting) :
    (n.push l).dropStatements = n.dropStatements := by
  simp [dropStatements, push, Level.isStatement, h]

/-- The innermost open bracket is what stands under the statements that are innermost. -/
theorem head?_brackets {n : Nesting} (h : n.WellFormed) :
    n.brackets.head? = n.dropStatements.top.kind.bracket? := by
  obtain ⟨root, ls⟩ := n
  obtain ⟨hroot, hnested, -⟩ := h
  simp only [brackets, dropStatements, top] at hroot hnested ⊢
  induction ls with
  | nil => rw [List.dropWhile_nil, List.headD_nil, hroot]; rfl
  | cons l ls ih =>
    obtain ⟨hl, hnested⟩ := List.forall_mem_cons.1 hnested
    rw [List.dropWhile_cons, List.filterMap_cons]
    cases hkind : l.kind with
    | top => exact absurd hkind hl
    | statement => simpa [Level.isStatement, hkind, LevelKind.bracket?] using ih hnested
    | bracket b => simp [Level.isStatement, hkind, LevelKind.bracket?]

theorem bracket?_eq_some_iff (k : LevelKind) (b : Bracket) : k.bracket? = some b ↔ k = .bracket b := by
  cases k <;> simp [LevelKind.bracket?]

/-- No statement hides a parenthesis or a square bracket. -/
theorem kind_top_of_dropStatements {n : Nesting} (h : n.WellFormed) {b : Bracket} (hb : b ≠ .brace)
    (hkind : n.dropStatements.top.kind = .bracket b) : n.top.kind = .bracket b := by
  obtain ⟨root, ls⟩ := n
  induction ls with
  | nil => exact hkind
  | cons l ls ih =>
    cases hl : l.isStatement with
    | false => simpa [dropStatements, top, hl] using hkind
    | true =>
      have hrest : (⟨root, ls⟩ : Nesting).top.kind = .bracket b := by
        refine ih ⟨h.root, fun l' hl' => h.nested l' (List.mem_cons_of_mem _ hl'), h.stands.tail⟩ ?_
        simpa [dropStatements, top, hl] using hkind
      cases ls with
      | nil => exact absurd (hrest.symm.trans h.root) (by simp)
      | cons l' ls =>
        obtain ⟨hstands, -⟩ := List.isChain_cons_cons.1 h.stands
        exact absurd (hstands (eq_of_beq hl) b hrest) hb

/-! ## A nesting holds the open brackets -/

theorem brackets_closeBrace {n : Nesting} (h : n.WellFormed) (indented : Nat) :
    (n.closeBrace indented).1.brackets = matchBracket n.brackets (some (.closing .brace)) := by
  have hdrop := wellFormed_dropStatements h
  simp only [closeBrace, matchBracket, head?_brackets h, bracket?_eq_some_iff]
  split
  · rename_i hbrace
    rw [brackets_dropStatements, brackets_close hdrop, hbrace, brackets_dropStatements]
    rfl
  · exact brackets_dropStatements n

theorem kind_top_eq_bracket_iff {n : Nesting} (h : n.WellFormed) {b : Bracket} (hb : b ≠ .brace) :
    n.top.kind = .bracket b ↔ n.brackets.head? = some b := by
  rw [head?_brackets h, bracket?_eq_some_iff]
  refine ⟨fun htop => ?_, kind_top_of_dropStatements h hb⟩
  rw [dropStatements_of_kind_top (by rw [htop]; simp), htop]

theorem brackets_closeOther {n : Nesting} (h : n.WellFormed) {b : Bracket} (hb : b ≠ .brace)
    (column indented : Nat) :
    (if n.top.kind = .bracket b then n.close indented
      else (n.openStatement (some (.closing b)) column indented, indented)).1.brackets =
      matchBracket n.brackets (some (.closing b)) := by
  simp only [matchBracket, ← kind_top_eq_bracket_iff h hb]
  split
  · rename_i htop
    rw [brackets_close h, htop]
    rfl
  · exact brackets_openStatement n _ column indented

/-- Ending a statement is no matter of brackets. -/
theorem brackets_closeStatement {n : Nesting} (h : n.WellFormed) (signal : Option Signal)
    (column indented : Nat) :
    (if n.top.kind = .statement then n.close indented
      else (n.openStatement signal column indented, indented)).1.brackets = n.brackets := by
  split
  · rename_i htop
    rw [brackets_close h, htop]
    rfl
  · exact brackets_openStatement n signal column indented

/-- A token does to the open brackets of a nesting what it does in the plain matcher. -/
theorem brackets_update {n : Nesting} (h : n.WellFormed) (signal : Option Signal)
    (column indented : Nat) :
    (n.update signal column indented).1.brackets = matchBracket n.brackets signal := by
  unfold update
  cases signal with
  | none => exact brackets_openStatement n _ column indented
  | some signal =>
    cases signal with
    | opening b => rfl
    | closing b =>
      cases b with
      | brace => exact brackets_closeBrace h indented
      | square => exact brackets_closeOther h (by decide) column indented
      | paren => exact brackets_closeOther h (by decide) column indented
    | semicolon => exact brackets_closeStatement h _ column indented
    | colon => exact brackets_closeStatement h _ column indented
    | comma => exact brackets_openStatement n _ column indented
    | dot => exact brackets_openStatement n _ column indented
    | blockKeyword => exact brackets_openStatement n _ column indented

theorem wellFormed_updates {n : Nesting} (h : n.WellFormed) (seen : List Sighting) :
    (n.updates seen).WellFormed := by
  induction seen generalizing n with
  | nil => exact h
  | cons t seen ih => exact ih (wellFormed_update h t.1 t.2.1 t.2.2)

theorem brackets_updates {n : Nesting} (h : n.WellFormed) (seen : List Sighting) :
    (n.updates seen).brackets = (seen.map (·.1)).foldl matchBracket n.brackets := by
  induction seen generalizing n with
  | nil => rfl
  | cons t seen ih =>
    rw [List.map_cons, List.foldl_cons, ← brackets_update h t.1 t.2.1 t.2.2]
    exact ih (wellFormed_update h t.1 t.2.1 t.2.2)

theorem filterMap_bracket?_kinds {n : Nesting} (h : n.WellFormed) :
    n.kinds.filterMap LevelKind.bracket? = n.brackets.reverse := by
  rw [kinds, levels, List.map_cons, h.root, List.filterMap_cons_none rfl, List.map_reverse,
    List.filterMap_reverse, List.filterMap_map]
  rfl

/-- From a root alone, over any tokens on lines of any indentation, the brackets among the levels,
from the root inwards, are the open brackets of the plain matcher. -/
theorem filterMap_bracket?_kinds_updates (root : Int) (seen : List Sighting) :
    ((ofRoot root).updates seen).kinds.filterMap LevelKind.bracket? =
      (openBrackets (seen.map (·.1))).reverse := by
  have hroot := wellFormed_ofRoot root
  rw [filterMap_bracket?_kinds (wellFormed_updates hroot seen), brackets_updates hroot seen]
  rfl

-- neither the square bracket nor the brace closes anything here
example : openBrackets [none, some (.opening .brace), none, some (.closing .square),
    some (.opening .paren), some (.closing .brace), some .semicolon] = [.paren, .brace] := rfl

end Nesting

end ShaderText
