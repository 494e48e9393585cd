/-
Lists of tokens for a reader or for another program. In the simple format each line holds the
tokens of one line side by side, as their category and their text; in the JSON format the list is
an array with one object for each line.
-/
import ShaderText.Json
import ShaderText.Lexing

namespace ShaderText

/-- How tokens are printed. -/
inductive OutputFormat
  | simple
  | json
  deriving DecidableEq, Repr, Inhabited

namespace OutputFormat

def name : OutputFormat → String
  | simple => "simple"
  | json => "json"

/-- The format of a name. -/
def ofName? (s : String) : Option OutputFormat := [simple, json].find? (·.name == s)

theorem ofName?_name (f : OutputFormat) : ofName? f.name = some f := by cases f <;> decide

end OutputFormat

/-! ## The simple format -/

/-- A token as its category and its text. -/
def Token.render (t : Token) : String := t.category.name ++ ":" ++ String.ofList t.text

/-- The tokens of each line side by side, every line ended. -/
def renderRows (rows : List (List Token)) : String :=
  String.join (rows.map fun tokens => " ".intercalate (tokens.map Token.render) ++ "\n")

/-! ## The JSON format -/

def Token.json (t : Token) : Json :=
  .object [("category", .text t.category.name), ("text", .text (String.ofList t.text)),
    ("span", .object [("start", .number t.start), ("end", .number t.stop)])]

/-- The tokens of each line with the number of the line, counted from 0. -/
def rowsJson (rows : List (List Token)) : Json :=
  .list (rows.mapIdx fun n tokens =>
    .object [("number", .number n), ("tokens", .list (tokens.map Token.json))])

/-- The tokens of each line in a format. -/
def listRows (format : OutputFormat) (rows : List (List Token)) : String :=
  match format with
  | .simple => renderRows rows
  | .json => (rowsJson rows).pretty ++ "\n"

end ShaderText
