/-
The parts of a text between separators. There is always at least one part, no part holds the
separator, and the parts with separators between them are the text.
-/

namespace ShaderText

/-- The parts of a text between the characters `separator`. -/
def splitAtChar (separator : Char) : List Char → List (List Char)
  | [] => [[]]
  | c :: cs =>
    let parts := splitAtChar separator cs
    if c = separator then [] :: parts else (c :: parts.headD []) :: parts.tail

theorem splitAtChar_ne_nil (separator : Char) (cs : List Char) :
    splitAtChar separator cs ≠ [] := by
  cases cs with
  | nil => simp [splitAtChar]
  | cons c cs =>
    simp only [splitAtChar]
    split <;> simp

theorem intercalate_splitAtChar (separator : Char) (cs : List Char) :
    [separator].intercalate (splitAtChar separator cs) = cs := by
  induction cs with
  | nil => rfl
  | cons c cs ih =>
    simp only [splitAtChar]
    cases h : splitAtChar separator cs with
    | nil => exact absurd h (splitAtChar_ne_nil separator cs)
    | cons part parts =>
      rw [h] at ih
      split
      · rename_i hc
        subst hc
        simp only [List.intercalate, List.intersperse] at ih ⊢
        rw [← ih]
        rfl
      · cases parts with
        | nil => simpa [List.intercalate] using ih
        | cons p ps => simpa [List.intercalate] using ih

end ShaderText
