/-
Which levels are aligned, as far as that is known. A token decides it for the level on which it stands
before it opens another, so of all levels but the innermost it is known; and tokens of the same signals
keep nestings alike in which the levels are of the same kinds and aligned alike.
-/
import ShaderText.Proofs.Nesting.Related

namespace ShaderText

namespace Nesting

/-! ## What a token does to the levels -/

/-- A token opens one level, or it closes some of the innermost. -/
theorem update_cases (n : Nesting) (signal : Option Signal) (column indented : Nat) :
    (∃ kind, (n.update signal column indented).1 = n.push (.opened indented column kind)) ∨
      ∃ ls, ls <:+ n.inner ∧ (n.update signal column indented).1 = { n with inner := ls } := by
  have hother : (∃ kind, n.openStatement signal column indented = n.push (.opened indented column kind)) ∨
      ∃ ls, ls <:+ n.inner ∧ n.openStatement signal column indented = { n with inner := ls } := by
    unfold openStatement
    split
    · exact .inl ⟨_, rfl⟩
    · exact .inr ⟨n.inner, List.suffix_refl _, rfl⟩
  have hclose (n : Nesting) : ∃ ls, ls <:+ n.inner ∧ (n.close indented).1 = { n with inner := ls } := by
    obtain ⟨root, _ | ⟨l, ls⟩⟩ := n
    · exact ⟨[], List.suffix_refl _, rfl⟩
    · exact ⟨ls, List.suffix_cons l ls, rfl⟩
  have hbrace : ∃ ls, ls <:+ n.inner ∧ (n.closeBrace indented).1 = { n with inner := ls } := by
    have hdrop (ls : List Level) : ls.dropWhile Level.isStatement <:+ ls := List.dropWhile_suffix _
    unfold closeBrace
    dsimp only
    split
    · obtain ⟨ls, hls, heq⟩ := hclose n.dropStatements
      refine ⟨ls.dropWhile Level.isStatement, (hdrop ls).trans (hls.trans (hdrop n.inner)), ?_⟩
      rw [heq]
      rfl
    · exact ⟨_, hdrop n.inner, rfl⟩
  unfold update
  dsimp only
  split
  · exact .inl ⟨_, rfl⟩
  · exact .inr hbrace
  · split
    · exact .inr (hclose n)
    · exact hother
  · split
    · exact .inr (hclose n)
    · exact hother
  · split
    · exact .inr (hclose n)
    · exact hother
  · exact hother

/-! ## Levels whose alignment is known -/

/-- Of every level it is known whether it is aligned. -/
structure Decided (n : Nesting) : Prop where
  root : n.root.aligned.isSome = true
  inner : ∀ l ∈ n.inner, l.aligned.isSome = true

theorem Decided.settle {n : Nesting} (h : n.Decided) (b : Bool) : (n.settle b).Decided := by
  obtain ⟨root, _ | ⟨l, ls⟩⟩ := n
  · exact ⟨rfl, h.inner⟩
  · obtain ⟨-, hls⟩ := List.forall_mem_cons.1 h.inner
    exact ⟨h.root, List.forall_mem_cons.2 ⟨rfl, hls⟩⟩

/-- Behind a token no level but the innermost is unknown. -/
theorem Decided.settle_update {n : Nesting} (h : n.Decided) (signal : Option Signal)
    (column indented : Nat) (b : Bool) : ((n.update signal column indented).1.settle b).Decided := by
  rcases n.update_cases signal column indented with ⟨kind, heq⟩ | ⟨ls, hls, heq⟩
  · rw [heq]
    exact ⟨h.root, List.forall_mem_cons.2 ⟨rfl, h.inner⟩⟩
  · rw [heq]
    have hkept : Decided { n with inner := ls } := ⟨h.root, fun l hl => h.inner l (hls.subset hl)⟩
    exact hkept.settle b

/-! ## Alignments that correspond -/

/-- The kinds and the alignments of the levels from the root inwards, an unknown one as false. -/
def shape (n : Nesting) : List (LevelKind × Bool) :=
  n.levels.map fun l => (l.kind, l.aligned.getD false)

/-- The kinds and the alignments of the levels from the root inwards, as far as known. -/
def marks (n : Nesting) : List (LevelKind × Option Bool) := n.levels.map fun l => (l.kind, l.aligned)

theorem shape_eq_map_marks (n : Nesting) : n.shape = n.marks.map fun k => (k.1, k.2.getD false) := by
  rw [marks, List.map_map]
  rfl

@[simp] theorem shape_settle_false (n : Nesting) : (n.settle false).shape = n.shape := by
  obtain ⟨root, _ | ⟨l, ls⟩⟩ := n
  · rfl
  · simp [shape, levels, settle, mapTop, Level.settle]

/-- Where all alignments are known, nothing is lost in counting the unknown ones as false. -/
theorem Decided.marks_eq {n : Nesting} (h : n.Decided) :
    n.marks = n.shape.map fun k => (k.1, some k.2) := by
  have hlevels : ∀ l ∈ n.levels, l.aligned.isSome = true := by
    simp only [levels, List.mem_cons, List.mem_reverse, forall_eq_or_imp]
    exact ⟨h.root, h.inner⟩
  rw [marks, shape, List.map_map]
  refine List.map_congr_left fun l hl => ?_
  obtain ⟨aligned, haligned⟩ := Option.isSome_iff_exists.1 (hlevels l hl)
  simp [haligned]

theorem marks_settle {n n' : Nesting} (h : n.marks = n'.marks) (b : Bool) :
    (n.settle b).marks = (n'.settle b).marks := by
  rw [marks, marks, ← related_eq_iff] at h ⊢
  refine h.settle fun l l' hl => ?_
  rw [Prod.mk.injEq] at hl ⊢
  exact ⟨hl.1, congrArg (fun aligned : Option Bool => some (aligned.getD b)) hl.2⟩

/-- The same signal keeps alignments that correspond. -/
theorem marks_update {n n' : Nesting} (h : n.marks = n'.marks) (signal : Option Signal)
    (column column' indented indented' : Nat) :
    (n.update signal column indented).1.marks = (n'.update signal column' indented').1.marks := by
  rw [marks, marks, ← related_eq_iff] at h ⊢
  have hkind : ∀ l l' : Level, (l.kind, l.aligned) = (l'.kind, l'.aligned) → l.kind = l'.kind :=
    fun _ _ hl => congrArg Prod.fst hl
  refine h.update hkind (fun kind => ?_) signal
  simp only [Level.opened]

end Nesting

end ShaderText
