/-
JSON values and how they are printed for a reader: every item of a list and every field of an
object on a line of its own, indented by two spaces a level, and nothing inside an empty one.
-/
import ShaderText.Text.Quoted

namespace ShaderText

/-- A JSON value. -/
inductive Json
  | number (value : Nat)
  | text (value : String)
  | list (items : List Json)
  | object (fields : List (String × Json))
  deriving Inhabited

namespace Json

/-- The controls that have an escape of their own. -/
def controlEscapes : List (Char × Char) :=
  [('\x08', 'b'), ('\t', 't'), ('\n', 'n'), ('\x0c', 'f'), ('\r', 'r')]

/-- A character inside a JSON string. -/
def escapeChar (c : Char) : List Char :=
  if c = '"' ∨ c = '\\' then ['\\', c]
  else match controlEscapes.lookup c with
    | some e => ['\\', e]
    | none =>
      if c.toNat < 0x20 then
        let digits := hexDigits c.toNat
        ['\\', 'u'] ++ List.replicate (4 - digits.length) '0' ++ digits
      else [c]

/-- A JSON string. -/
def quote (s : String) : String :=
  String.ofList ('"' :: s.toList.flatMap escapeChar ++ ['"'])

/-- A line break and the indentation of a level. -/
def lineStart (level : Nat) : String :=
  String.ofList ('\n' :: List.replicate (2 * level) ' ')

mutual

/-- A value as it stands at a level of indentation. -/
def printAt (level : Nat) : Json → String
  | number n => toString n
  | text s => quote s
  | list [] => "[]"
  | list (item :: items) =>
    "[" ++ lineStart (level + 1) ++ printAt (level + 1) item ++ printItems (level + 1) items ++
      lineStart level ++ "]"
  | object [] => "\x7b\x7d"
  | object (field :: fields) =>
    "\x7b" ++ lineStart (level + 1) ++ printField (level + 1) field ++
      printFields (level + 1) fields ++ lineStart level ++ "\x7d"

/-- The items of a list behind the first. -/
def printItems (level : Nat) : List Json → String
  | [] => ""
  | item :: items => "," ++ lineStart level ++ printAt level item ++ printItems level items

/-- A field of an object. -/
def printField (level : Nat) : String × Json → String
  | (key, value) => quote key ++ ": " ++ printAt level value

/-- The fields of an object behind the first. -/
def printFields (level : Nat) : List (String × Json) → String
  | [] => ""
  | field :: fields => "," ++ lineStart level ++ printField level field ++ printFields level fields

end

/-- A value, printed for a reader. -/
def pretty (j : Json) : String := j.printAt 0

end Json

end ShaderText
