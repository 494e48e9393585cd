/-
Nestings that correspond level by level. Whatever a correspondence says about the columns of two
levels, if it relates only levels of one kind, then the same signal updates related nestings to
related ones: which levels are opened and closed depends on kinds alone.
-/
import Mathlib.Data.List.Forall2
import ShaderText.Nesting

namespace ShaderText

/-- Levels of one kind. -/
def Level.SameKind (l l' : Level) : Prop := l.kind = l'.kind

namespace Nesting

/-- Nestings of the same depth whose levels correspond. -/
structure Related (R : Level → Level → Prop) (n n' : Nesting) : Prop where
  root : R n.root n'.root
  inner : List.Forall₂ R n.inner n'.inner

namespace Related

variable {R : Level → Level → Prop} {n n' : Nesting}

theorem top (h : Related R n n') : R n.top n'.top := by
  obtain ⟨root, inner⟩ := n
  obtain ⟨root', inner'⟩ := n'
  obtain ⟨hroot, hinner⟩ := h
  cases hinner with
  | nil => exact hroot
  | cons hl _ => exact hl

theorem mapTop {f f' : Level → Level} (hf : ∀ l l', R l l' → R (f l) (f' l')) (h : Related R n n') :
    Related R (n.mapTop f) (n'.mapTop f') := by
  obtain ⟨root, inner⟩ := n
  obtain ⟨root', inner'⟩ := n'
  obtain ⟨hroot, hinner⟩ := h
  cases hinner with
  | nil => exact ⟨hf _ _ hroot, .nil⟩
  | cons hl hls => exact ⟨hroot, .cons (hf _ _ hl) hls⟩

theorem push {l l' : Level} (hl : R l l') (h : Related R n n') : Related R (n.push l) (n'.push l') :=
  ⟨h.root, .cons hl h.inner⟩

theorem close (h : Related R n n') (indented indented' : Nat) :
    Related R (n.close indented).1 (n'.close indented').1 := by
  obtain ⟨root, inner⟩ := n
  obtain ⟨root', inner'⟩ := n'
  obtain ⟨hroot, hinner⟩ := h
  cases hinner with
  | nil => exact ⟨hroot, .nil⟩
  | cons _ hls => exact ⟨hroot, hls⟩

section

variable (hkind : ∀ l l', R l l' → l.kind = l'.kind)

include hkind

theorem kind_top (h : Related R n n') : n.top.kind = n'.top.kind := hkind _ _ h.top

theorem dropStatements (h : Related R n n') : Related R n.dropStatements n'.dropStatements := by
  obtain ⟨hroot, hinner⟩ := h
  refine ⟨hroot, ?_⟩
  simp only [Nesting.dropStatements]
  generalize n.inner = ls at hinner
  generalize n'.inner = ls' at hinner
  induction hinner with
  | nil => exact .nil
  | @cons l l' ls ls' hl hls ih =>
    have hstatement : l.isStatement = l'.isStatement := by
      rw [Level.isStatement, Level.isStatement, hkind _ _ hl]
    rw [List.dropWhile_cons, List.dropWhile_cons, hstatement]
    split
    · exact ih
    · exact .cons hl hls

theorem closeBrace (h : Related R n n') (indented indented' : Nat) :
    Related R (n.closeBrace indented).1 (n'.closeBrace indented').1 := by
  have hdrop := h.dropStatements hkind
  simp only [Nesting.closeBrace]
  rw [hdrop.kind_top hkind]
  split
  · exact (hdrop.close indented indented').dropStatements hkind
  · exact hdrop

variable {column column' indented indented' : Nat}
  (hopened : ∀ kind, R (.opened indented column kind) (.opened indented' column' kind))

include hopened

theorem openStatement (h : Related R n n') (signal : Option Signal) :
    Related R (n.openStatement signal column indented) (n'.openStatement signal column' indented') := by
  simp only [Nesting.openStatement]
  rw [h.kind_top hkind]
  split
  · exact h.push (hopened _)
  · exact h

/-- The same signal updates related nestings to related ones. -/
theorem update (h : Related R n n') (signal : Option Signal) :
    Related R (n.update signal column indented).1 (n'.update signal column' indented').1 := by
  have hother := h.openStatement hkind hopened signal
  unfold Nesting.update
  dsimp only
  rw [h.kind_top hkind]
  split
  · exact h.push (hopened _)
  · exact h.closeBrace hkind indented indented'
  · split
    · exact h.close indented indented'
    · exact hother
  · split
    · exact h.close indented indented'
    · exact hother
  · split
    · exact h.close indented indented'
    · exact hother
  · exact hother

end

theorem settle {b : Bool} (hsettle : ∀ l l', R l l' → R (l.settle b) (l'.settle b))
    (h : Related R n n') : Related R (n.settle b) (n'.settle b) :=
  h.mapTop hsettle

end Related

/-! ## Kinds -/

theorem kinds_eq_cons (n : Nesting) : n.kinds = n.root.kind :: (n.inner.map Level.kind).reverse := by
  rw [kinds, levels, List.map_cons, List.map_reverse]

@[simp] theorem kinds_settle (n : Nesting) (b : Bool) : (n.settle b).kinds = n.kinds := by
  rw [kinds_eq_cons, kinds_eq_cons]
  obtain ⟨root, inner⟩ := n
  cases inner <;> rfl

/-- A correspondence that compares one value of each level is equality of the lists of these values. -/
theorem related_eq_iff {α : Type} (f : Level → α) (n n' : Nesting) :
    Related (fun l l' => f l = f l') n n' ↔ n.levels.map f = n'.levels.map f := by
  have hinner : List.Forall₂ (fun l l' => f l = f l') n.inner n'.inner ↔
      n.inner.map f = n'.inner.map f := by
    rw [← List.forall₂_eq_eq_eq, List.forall₂_map_left_iff, List.forall₂_map_right_iff]
  simp only [levels, List.map_cons, List.map_reverse, List.cons.injEq, List.reverse_inj, ← hinner]
  exact ⟨fun h => ⟨h.root, h.inner⟩, fun h => ⟨h.1, h.2⟩⟩

/-- Nestings have the same kinds exactly if their levels correspond in kind. -/
theorem related_sameKind_iff (n n' : Nesting) :
    Related Level.SameKind n n' ↔ n.kinds = n'.kinds :=
  related_eq_iff Level.kind n n'

/-- The same signal updates nestings of the same kinds to nestings of the same kinds. -/
theorem kinds_update {n n' : Nesting} (h : n.kinds = n'.kinds) (signal : Option Signal)
    (column column' indented indented' : Nat) :
    (n.update signal column indented).1.kinds = (n'.update signal column' indented').1.kinds := by
  have hopened : ∀ kind, Level.SameKind (.opened indented column kind)
      (.opened indented' column' kind) := fun _ => rfl
  rw [← related_sameKind_iff] at h ⊢
  exact h.update (fun _ _ hl => hl) hopened signal

end Nesting

end ShaderText
