/-
Settings as they are written: numbers, texts, truth values, dates and times, in lists and in tables.
A table lists its keys with their values, each key once.
-/
import ShaderText.Moment

namespace ShaderText

/-- A written value. -/
inductive Datum
  | null
  | bool (value : Bool)
  | int (value : Int)
  | float (value : Float)
  | text (value : String)
  | moment (value : Moment)
  | list (items : List Datum)
  | table (entries : List (String × Datum))
  deriving Inhabited

namespace Datum

def emptyTable : Datum := table []

/-- The entries of a table; anything else has none. -/
def entries : Datum → List (String × Datum)
  | table es => es
  | _ => []

/-- The items of a list; anything else has none. -/
def items : Datum → List Datum
  | list ds => ds
  | _ => []

/-- The value of a key in a table. -/
def get? (d : Datum) (key : String) : Option Datum := d.entries.lookup key

end Datum

/-- Sets the value of a key, in its place if the key is there and behind all others if not. -/
def setEntry {α : Type} (key : String) (value : α) : List (String × α) → List (String × α)
  | [] => [(key, value)]
  | (k, v) :: es => if k = key then (key, value) :: es else (k, v) :: setEntry key value es

theorem lookup_setEntry {α : Type} (key k : String) (value : α) (es : List (String × α)) :
    (setEntry key value es).lookup k = if k = key then some value else es.lookup k := by
  induction es with
  | nil =>
    by_cases h : k = key
    · subst h
      simp [setEntry]
    · simp [setEntry, List.lookup_cons, beq_eq_false_iff_ne.2 h, h]
  | cons e es ih =>
    obtain ⟨k', v⟩ := e
    simp only [setEntry]
    by_cases hk : k' = key
    · subst hk
      by_cases h : k = k'
      · subst h
        simp
      · simp [List.lookup_cons, beq_eq_false_iff_ne.2 h, h]
    · rw [if_neg hk]
      by_cases h : k = k'
      · subst h
        simp [hk]
      · simpa [List.lookup_cons, beq_eq_false_iff_ne.2 h] using ih

end ShaderText
