/-
Nestings over a text. Of a text, a nesting and the indentation of the line see two kinds of events:
lines start, and significant tokens are read.
-/
import ShaderText.State

namespace ShaderText

/-- What a nesting sees of a text. -/
inductive Event
  /-- A line indented by so much starts. -/
  | line (indented : Nat)
  /-- A significant token with this signal is read at a column. -/
  | token (signal : Option Signal) (column : Nat)
  deriving DecidableEq, Repr

/-- The signal of a significant token. -/
def Event.signal? : Event → Option (Option Signal)
  | line _ => none
  | token signal _ => some signal

/-- The signals of the significant tokens among some events. -/
def signalsOf (es : List Event) : List (Option Signal) := es.filterMap Event.signal?

theorem signalsOf_append (es es' : List Event) : signalsOf (es ++ es') = signalsOf es ++ signalsOf es' :=
  List.filterMap_append

theorem signalsOf_eq_append_iff {es : List Event} {xs ys : List (Option Signal)} :
    signalsOf es = xs ++ ys ↔ ∃ es₁ es₂, es = es₁ ++ es₂ ∧ signalsOf es₁ = xs ∧ signalsOf es₂ = ys :=
  List.filterMap_eq_append_iff

/-- The first significant token stands behind line starts alone. -/
theorem signalsOf_eq_cons {es : List Event} {x : Option Signal} {xs : List (Option Signal)}
    (h : signalsOf es = x :: xs) :
    ∃ es₁ column es₂, es = es₁ ++ .token x column :: es₂ ∧ signalsOf es₁ = [] ∧ signalsOf es₂ = xs := by
  obtain ⟨es₁, e, es₂, rfl, hes₁, he, hes₂⟩ := List.filterMap_eq_cons_iff.1 h
  cases e with
  | line _ => cases he
  | token signal column =>
    cases he
    exact ⟨es₁, column, es₂, rfl, List.filterMap_eq_nil_iff.2 hes₁, hes₂⟩

/-- A nesting and the indentation of the line that is read. -/
structure Layout where
  nesting : Nesting
  indented : Nat
  deriving DecidableEq, Repr

/-- The nesting and the line's indentation in a state. -/
def State.layout (s : State) : Layout := ⟨s.nesting, s.indented⟩

namespace Layout

/-- The layout behind an event. -/
def after (l : Layout) : Event → Layout
  | .line indented => ⟨l.nesting.settle false, indented⟩
  | .token signal column =>
    let (nesting, indented) := (l.nesting.settle true).update signal column l.indented
    ⟨nesting, indented⟩

/-- The layout behind some events. -/
def afterAll (l : Layout) (es : List Event) : Layout := es.foldl after l

@[simp] theorem afterAll_nil (l : Layout) : l.afterAll [] = l := rfl

@[simp] theorem afterAll_cons (l : Layout) (e : Event) (es : List Event) :
    l.afterAll (e :: es) = (l.after e).afterAll es := rfl

@[simp] theorem afterAll_append (l : Layout) (es es' : List Event) :
    l.afterAll (es ++ es') = (l.afterAll es).afterAll es' :=
  List.foldl_append

/-- Starts of lines decide an alignment that is not known yet, and nothing else. -/
theorem nesting_afterAll_of_no_signal {l : Layout} {es : List Event} (h : signalsOf es = []) :
    (l.afterAll es).nesting = l.nesting ∨ (l.afterAll es).nesting = l.nesting.settle false := by
  induction es generalizing l with
  | nil => exact .inl rfl
  | cons e es ih =>
    cases e with
    | token signal column => cases h
    | line indented =>
      right
      rcases ih (l := l.after (.line indented)) h with hes | hes
      · exact hes
      · exact hes.trans (Nesting.settle_settle _ false false)

end Layout

end ShaderText
