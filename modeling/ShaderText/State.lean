/-
The state that lexing carries from one token to the next and from one line to the next. Two runs
that reach equal states go on alike.
-/
import ShaderText.Nesting

namespace ShaderText

/-- What the text at a place belongs to. -/
inductive Region
  | code
  | string (quote : Char)
  | comment
  deriving DecidableEq, Repr, Inhabited

/-- Inside a string or a comment that goes on. -/
def Region.isLiteral : Region → Bool
  | code => false
  | string _ | comment => true

/-- The state between two tokens. -/
structure State where
  region : Region
  nesting : Nesting
  /-- The indentation of the line being read. -/
  indented : Nat
  /-- No significant token was met on the line yet. -/
  startOfLine : Bool
  deriving DecidableEq, Repr, Inhabited

namespace State

/-- The state before any text, with the root indented by `root`. -/
def start (root : Int) : State := ⟨.code, .ofRoot root, 0, true⟩

/-- Inside a string or a comment that goes on. -/
def inLiteral (s : State) : Bool := s.region.isLiteral

/-- The state in which a line that is indented by `indented` starts. -/
def atLineStart (s : State) (indented : Nat) : State :=
  { s with nesting := s.nesting.settle false, indented := indented, startOfLine := true }

/-- The state behind a significant token at `column` that leads into `region`. -/
def afterToken (s : State) (region : Region) (signal : Option Signal) (column : Nat) : State :=
  let (nesting, indented) := (s.nesting.settle true).update signal column s.indented
  ⟨region, nesting, indented, false⟩

end State

end ShaderText
