/-
Finite sets of words, usually read off a list in which blanks separate them. A set holds each word
once; it holds what was put in and nothing else.
-/
import ShaderText.Text.Blank

namespace ShaderText

/-- A finite set of words. -/
structure WordSet where
  words : List (List Char)
  nodup : words.Nodup := by decide

namespace WordSet

def empty : WordSet := ⟨[], List.nodup_nil⟩

/-- Membership. -/
def contains (s : WordSet) (word : List Char) : Bool := s.words.contains word

def size (s : WordSet) : Nat := s.words.length

def isEmpty (s : WordSet) : Bool := s.words.isEmpty

/-- The set with one more word. -/
def insert (s : WordSet) (word : List Char) : WordSet :=
  if h : word ∈ s.words then s else ⟨word :: s.words, List.nodup_cons.2 ⟨h, s.nodup⟩⟩

/-- The set of the words in a list. -/
def ofList (words : List (List Char)) : WordSet := words.foldl insert empty

/-- The set of the words that blanks separate in a text. -/
def ofText (text : String) : WordSet := ofList (blankSeparatedWords text.toList)

theorem contains_empty (word : List Char) : empty.contains word = false := rfl

theorem contains_insert (s : WordSet) (word w : List Char) :
    (s.insert word).contains w = (w == word || s.contains w) := by
  unfold insert contains
  split
  · rename_i h
    cases hw : w == word with
    | false => rfl
    | true => rw [eq_of_beq hw]; simpa using h
  · rw [List.contains_cons]

theorem contains_foldl_insert (words : List (List Char)) (s : WordSet) (w : List Char) :
    (words.foldl insert s).contains w = (words.contains w || s.contains w) := by
  induction words generalizing s with
  | nil => simp
  | cons v vs ih =>
    rw [List.foldl_cons, ih, contains_insert, List.contains_cons]
    cases w == v <;> cases vs.contains w <;> rfl

/-- The set of a list holds exactly the words of the list. -/
theorem contains_ofList (words : List (List Char)) (w : List Char) :
    (ofList words).contains w = words.contains w := by
  rw [ofList, contains_foldl_insert, contains_empty, Bool.or_false]

end WordSet

end ShaderText
