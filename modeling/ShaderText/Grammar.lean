/-
A grammar tells what a word is. It has four tables: keywords, built-in functions, keywords that
introduce a block, and atoms. A word in several tables is a keyword first, then a built-in, then an
atom; being a block keyword matters only for a keyword.
-/
import ShaderText.Token
import ShaderText.WordSet

namespace ShaderText

/-- A table of words, given by its membership test. -/
abbrev WordTable := List Char → Bool

/-- The four word tables. -/
structure Grammar where
  keywords : WordTable
  builtins : WordTable
  blockKeywords : WordTable
  atoms : WordTable
  deriving Inhabited

/-- What a grammar says about a word that it knows. -/
inductive WordClass
  | keyword (introducesBlock : Bool)
  | builtin
  | atom
  deriving DecidableEq, Repr, Inhabited

namespace Grammar

/-- The grammar that knows no word. -/
def empty : Grammar := ⟨fun _ => false, fun _ => false, fun _ => false, fun _ => false⟩

/-- The class of a word, if the grammar knows it. -/
def classify (g : Grammar) (word : List Char) : Option WordClass :=
  if g.keywords word then some (.keyword (g.blockKeywords word))
  else if g.builtins word then some .builtin
  else if g.atoms word then some .atom
  else none

/-- The category of a word; one that the grammar does not know is a plain word. -/
def category (g : Grammar) (word : List Char) : Category :=
  match g.classify word with
  | some (.keyword _) => .keyword
  | some .builtin => .builtin
  | some .atom => .atom
  | none => .word

/-- The signal of a word: only a keyword that introduces a block has one. -/
def signal (g : Grammar) (word : List Char) : Option Signal :=
  match g.classify word with
  | some (.keyword true) => some .blockKeyword
  | _ => none

theorem signal_eq_some_iff (g : Grammar) (word : List Char) (s : Signal) :
    g.signal word = some s ↔
      s = .blockKeyword ∧ g.keywords word = true ∧ g.blockKeywords word = true := by
  unfold signal classify
  cases g.keywords word <;> cases g.blockKeywords word <;> cases g.builtins word <;>
    cases g.atoms word <;> simp [eq_comm]

theorem category_empty (word : List Char) : empty.category word = .word := rfl

end Grammar

end ShaderText
