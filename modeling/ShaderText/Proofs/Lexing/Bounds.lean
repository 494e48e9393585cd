/-
What lexing keeps of every nesting, whatever lines it reads from a base column, as long as the base
column, the indent unit and the columns of what it reads are below 2^62. The root stays as it was; only
the root is of its kind or may be indented by a negative number; a statement stands on the root, on a
brace or on another statement, and never innermost behind a closing brace. So no proposal is negative, and
where nothing is open every line is indented to the base column.
-/
import ShaderText.Proofs.Lexing.Layout
import ShaderText.Proofs.Nesting.Bounds

namespace ShaderText

namespace Mode

variable {m : Mode} {base limit : Nat} {s : State}

/-- The states in which lexing from a base column may be, step by step from any places in any lines, as
long as it starts lines that are indented and reads significant tokens that stand below a limit. -/
inductive ReachedBelow (m : Mode) (base limit : Nat) : State → Prop
  | start : ReachedBelow m base limit (m.start base)
  | step {s : State} (c : Cursor) : ReachedBelow m base limit s →
      (∀ e ∈ (m.step c s).events, e.Below limit) → ReachedBelow m base limit (m.step c s).state

theorem Reads.reachedBelow {c c' : Cursor} {s' : State} {rs : List Step} (h : m.Reads c s rs c' s')
    (hs : m.ReachedBelow base limit s) (hevents : ∀ e ∈ rs.flatMap Step.events, e.Below limit) :
    m.ReachedBelow base limit s' := by
  induction h with
  | stop c s => exact hs
  | step _ _ ih =>
    obtain ⟨hstep, hsteps⟩ := List.forall_mem_append.1 hevents
    exact ih (hs.step _ hstep) hsteps
  | newLine line _ _ ih => exact ih hs hevents

/-- The state behind some lines that are indented below the limit, with their tokens below it too. -/
theorem reachedBelow_stateAfter {lines : List (List Char)}
    (hevents : ∀ e ∈ (m.linesSteps lines (m.start base)).flatMap Step.events, e.Below limit) :
    m.ReachedBelow base limit (m.stateAfter lines (m.start base)) := by
  obtain ⟨c, hreads, -⟩ := m.reads_linesSteps (c := m.cursor []) rfl lines (m.start base)
  exact hreads.reachedBelow .start hevents

theorem nesting_start (hbase : 2 * base < UInt64.size) (hunit : 2 * m.indentUnit < UInt64.size) :
    (m.start base).nesting = .ofRoot ((base : Int) - m.indentUnit) := by
  rw [start, signed_of_lt hbase, signed_of_lt hunit]
  rfl

theorem within_start (hlimit : 2 * limit ≤ UInt64.size) (hbase : base < limit)
    (hunit : 2 * m.indentUnit < UInt64.size) :
    (m.start base).layout.Within ⟨(base : Int) - m.indentUnit, 0, .top, some false⟩ limit := by
  have hnesting : Nesting.Within ⟨(base : Int) - m.indentUnit, 0, .top, some false⟩ limit
      (m.start base).nesting := by
    rw [nesting_start (by omega) hunit]
    exact ⟨Nesting.wellFormed_ofRoot _, rfl, fun l hl => absurd hl List.not_mem_nil⟩
  exact ⟨hnesting, Nat.zero_lt_of_lt hbase⟩

theorem ReachedBelow.within (h : m.ReachedBelow base limit s) (hlimit : 2 * limit ≤ UInt64.size)
    (hbase : base < limit) (hunit : 2 * m.indentUnit < UInt64.size) :
    s.layout.Within ⟨(base : Int) - m.indentUnit, 0, .top, some false⟩ limit := by
  induction h with
  | start => exact within_start hlimit hbase hunit
  | step c _ hevents ih =>
    rw [layout_step]
    exact ih.afterAll hlimit rfl hevents

theorem ReachedBelow.nesting (h : m.ReachedBelow base limit s) (hlimit : 2 * limit ≤ UInt64.size)
    (hbase : base < limit) (hunit : 2 * m.indentUnit < UInt64.size) :
    s.nesting.Within ⟨(base : Int) - m.indentUnit, 0, .top, some false⟩ limit :=
  (h.within hlimit hbase hunit).nesting

/-- Right behind a closing brace no statement is innermost. -/
theorem kind_top_step_of_brace (m : Mode) {c : Cursor} (hroot : s.nesting.root.kind ≠ .statement)
    (hbrace : (m.step c s).signal? = some (some (.closing .brace))) :
    (m.step c s).state.nesting.top.kind ≠ .statement := by
  have hkind (n : Nesting) (b : Bool) : (n.settle b).root.kind = n.root.kind := by
    obtain ⟨root, _ | ⟨l, ls⟩⟩ := n <;> rfl
  have hentered : (s.enter c).nesting.root.kind = s.nesting.root.kind := by
    unfold State.enter
    split
    · exact hkind s.nesting false
    · rfl
  have hlayout := congrArg Layout.nesting (m.layout_step_of_signal c s hbrace)
  have hclosed : (m.step c s).state.nesting =
      (((s.enter c).nesting.settle true).closeBrace (s.enter c).indented).1 := hlayout
  rw [hclosed]
  refine Nesting.kind_top_closeBrace ?_ _
  rw [hkind, hentered]
  exact hroot

theorem indent_of_isRoot (hroot : s.nesting.isRoot = true) (hcode : s.region = .code)
    (hunit : 2 * m.indentUnit < UInt64.size)
    (hn : s.nesting.root = ⟨(base : Int) - m.indentUnit, 0, .top, some false⟩) (text : List Char) :
    m.indent s text = base := by
  have hproposal := Nesting.proposal_of_isRoot hroot (by rw [hn]) (by rw [hn])
    (trimLeading text).head? m.indentUnit
  rw [hn, signed_of_lt hunit, Int.sub_add_cancel] at hproposal
  rw [indent, State.inLiteral, hcode, Nesting.indentation, hproposal]
  rfl

/-- In whatever state lexing from a base column may be, with the base column, the indent unit and all
columns below 2^62: the root is as it was at the start; no other level is of its kind or indented by less
than 0; a statement stands on the root, on a brace or on another statement; behind a closing brace no
statement is innermost; every proposal is the column that it is taken for, neither negative nor too large
for a signed number; and with nothing but the root, every line in code is indented to the base column. -/
theorem nesting_of_reachedBelow (hlimit : 4 * limit ≤ UInt64.size) (hbase : base < limit)
    (hunit : m.indentUnit < limit) (h : m.ReachedBelow base limit s) :
    s.nesting.root = ⟨(base : Int) - m.indentUnit, 0, .top, some false⟩ ∧
    (∀ l ∈ s.nesting.inner, l.kind ≠ .top ∧ 0 ≤ l.indented) ∧
    s.nesting.levels.IsChain (fun below above => above.kind = .statement →
      below.kind = .top ∨ below.kind = .bracket .brace ∨ below.kind = .statement) ∧
    (∀ c, (m.step c s).signal? = some (some (.closing .brace)) →
      (m.step c s).state.nesting.top.kind ≠ .statement) ∧
    (∀ first, 0 ≤ s.nesting.proposal first m.indentUnit ∧
      2 * s.nesting.proposal first m.indentUnit < (UInt64.size : Nat) ∧
      (s.nesting.indentation first m.indentUnit : Int) = s.nesting.proposal first m.indentUnit) ∧
    (s.nesting.isRoot = true → s.region = .code → ∀ text, m.indent s text = base) := by
  have hn := h.nesting (by omega) hbase (by omega)
  refine ⟨hn.root, ?_, hn.wellFormed.isChain_levels, ?_, ?_, ?_⟩
  · intro l hl
    exact ⟨hn.wellFormed.nested l hl, (hn.inner l hl).nonneg⟩
  · intro c hbrace
    refine m.kind_top_step_of_brace ?_ hbrace
    rw [hn.root]
    simp
  · intro first
    obtain ⟨hnonneg, hle⟩ := hn.proposal (by omega) hbase (by omega) first
    exact ⟨hnonneg, by omega, Int.toNat_of_nonneg hnonneg⟩
  · intro hroot hcode text
    exact indent_of_isRoot hroot hcode (by omega) hn.root text

/-- At base column 1 the root is indented by -1, and behind a block lines stand at column 1 again. -/
theorem nesting_of_reachedBelow_block :
    let s := bare.stateAfter [['{'], [' ', 'x', '('], [')', '}']] (bare.start 1)
    4 * 100 ≤ UInt64.size ∧ 1 < 100 ∧ bare.indentUnit < 100 ∧ bare.ReachedBelow 1 100 s ∧
      s.nesting.root.indented = -1 ∧ (∀ first, 0 ≤ s.nesting.proposal first bare.indentUnit) ∧
      ∀ text, bare.indent s text = 1 := by
  intro s
  have hs : bare.ReachedBelow 1 100 s := reachedBelow_stateAfter (by decide +kernel)
  obtain ⟨hroot, -, -, -, hproposal, hindent⟩ :=
    nesting_of_reachedBelow (by decide) (by decide) (by decide) hs
  refine ⟨by decide, by decide, by decide, hs, by rw [hroot]; rfl, fun first => (hproposal first).1, ?_⟩
  exact hindent (by decide +kernel) (by decide +kernel)

end Mode

end ShaderText
