/-
Keys that reach into nested settings: a name, then names behind dots and positions in brackets, as
in `mode.indent_unit` and `list[2].name`. Names are made of ASCII letters and digits, `_`, `-` and
spaces; they count in lower case.
-/
import ShaderText.Text.LowerCase

namespace ShaderText.Settings

/-- One step into nested settings. -/
inductive KeyStep
  | child (name : String)
  /-- A position in a list; a negative one counts from its end. -/
  | item (index : Int)
  deriving DecidableEq, Repr, Inhabited

def isNameChar (c : Char) : Bool := c.isAlphanum || c == '_' || c == '-' || c == ' '

/-- The name that a text starts with, in lower case, and what follows it. -/
def name? (cs : List Char) : Option (String × List Char) :=
  let name := cs.takeWhile isNameChar
  if name.isEmpty then none else some (lowerCase (String.ofList name), cs.drop name.length)

def isSpace (c : Char) : Bool := c == ' ' || c == '\t'

/-- The position that a text starts with, from behind its bracket on, and what follows it. -/
def index? (cs : List Char) : Option (Int × List Char) := do
  let cs := cs.dropWhile isSpace
  let (negative, cs) := match cs with
    | '-' :: cs => (true, cs)
    | cs => (false, cs)
  let digits := cs.takeWhile Char.isDigit
  let n : Nat := digits.foldl (fun n c => n * 10 + (c.toNat - '0'.toNat)) 0
  let n : Int := if negative then -n else n
  if digits.isEmpty ∨ n < Int64.minValue.toInt ∨ Int64.maxValue.toInt < n then none
  else match (cs.dropWhile Char.isDigit).dropWhile isSpace with
    | ']' :: rest => some (n, rest)
    | _ => none

/-- The steps behind the first name; `fuel` bounds their number. -/
def steps? : Nat → List Char → Option (List KeyStep)
  | _, [] => some []
  | 0, _ => none
  | fuel + 1, c :: cs =>
    if c = '.' then do
      let (name, rest) ← name? cs
      return .child name :: (← steps? fuel rest)
    else if c = '[' then do
      let (index, rest) ← index? cs
      return .item index :: (← steps? fuel rest)
    else none

/-- The steps that a key writes; there is at least one, and the first is a name. -/
def keySteps? (key : String) : Option (List KeyStep) := do
  let (name, rest) ← name? key.toList
  return .child name :: (← steps? rest.length rest)

end ShaderText.Settings
