/-
Regular states. In a regular state it is known how every level but the innermost is aligned, and a string
that goes on began with a quotation mark. Every step keeps that, for a token decides how a level is aligned
before it opens another; so all states that lexing reaches are regular, from the start of a text step by
step, whatever the modes and the lines.
-/
import ShaderText.Proofs.Lexing.Lexeme
import ShaderText.Proofs.Lexing.Trace
import ShaderText.Proofs.Nesting.Alignment

namespace ShaderText

namespace State

/-! ## Regular states -/

/-- However the innermost level is aligned, that is known of all others; and a string that goes on began
with a quotation mark. -/
structure Regular (s : State) : Prop where
  decided : ∀ b, (s.nesting.settle b).Decided
  quote : ∀ quote, s.region = .string quote → isQuote quote = true

theorem regular_start (m : Mode) (base : Nat) : (m.start base).Regular := by
  refine ⟨fun b => ⟨rfl, fun l hl => absurd hl List.not_mem_nil⟩, fun quote h => ?_⟩
  cases h

namespace Regular

variable {s : State}

theorem atLineStart (h : s.Regular) (indented : Nat) : (s.atLineStart indented).Regular := by
  refine ⟨fun b => ?_, h.quote⟩
  have hsettled : (s.atLineStart indented).nesting.settle b = s.nesting.settle false :=
    s.nesting.settle_settle false b
  exact hsettled ▸ h.decided false

theorem enter (h : s.Regular) (c : Cursor) : (s.enter c).Regular := by
  unfold State.enter
  split
  · exact h.atLineStart _
  · exact h

theorem afterLexeme (h : s.Regular) (m : Mode) (c : Cursor) (column : Nat) :
    (s.afterLexeme (m.lexeme c s) column).Regular := by
  have hquote : ∀ quote, (m.lexeme c s).region = .string quote → isQuote quote = true := by
    intro quote hstring
    rcases m.region_lexeme c s with hcode | ⟨-, hquoted⟩
    · rw [hcode] at hstring
      cases hstring
    · exact (hquoted quote hstring).elim id (h.quote quote)
  refine ⟨fun b => ?_, fun quote hstring => hquote quote (by rwa [region_afterLexeme] at hstring)⟩
  unfold State.afterLexeme
  split
  · exact h.decided b
  · exact (h.decided true).settle_update _ _ _ b

theorem step (h : s.Regular) (m : Mode) (c : Cursor) : (m.step c s).state.Regular := by
  by_cases hblank : leadingBlanks c.rest = []
  · rw [m.step_of_not_blank s hblank]
    exact (h.enter c).afterLexeme m c.startToken _
  · rw [m.step_of_blank s hblank]
    exact h.enter c

theorem lexFrom (h : s.Regular) (m : Mode) (c : Cursor) : (m.lexFrom c s).2.Regular := by
  induction c, s using m.reading_induction with
  | atEnd c s hrest => rwa [m.lexFrom_of_end s hrest]
  | step c s hrest ih =>
    rw [m.lexFrom_of_rest s hrest]
    exact ih (h.step m c)

theorem lexLine (h : s.Regular) (m : Mode) (line : List Char) : (m.lexLine line s).2.Regular :=
  h.lexFrom m (m.cursor line)

end Regular

/-! ## Reachable states -/

/-- The states in which lexing may be, from the start of a text on. -/
inductive Reachable : State → Prop
  | start (m : Mode) (base : Nat) : Reachable (m.start base)
  | step {s : State} (m : Mode) (c : Cursor) : Reachable s → Reachable (m.step c s).state

theorem Reachable.regular {s : State} (h : s.Reachable) : s.Regular := by
  induction h with
  | start m base => exact regular_start m base
  | step m c _ ih => exact ih.step m c

end State

end ShaderText
