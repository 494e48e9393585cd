/-
What lexing produces: the category of a piece of text, the structural signal it may carry, and
tokens with their place in the line.

Every punctuation character has its own signal, and the character of a signal gives it back.
-/

namespace ShaderText

/-! ## Categories -/

/-- What a piece of text is. -/
inductive Category
  | keyword
  | builtin
  | atom
  | number
  | string
  | comment
  /-- A line for the preprocessor, kept as it is. -/
  | directive
  | operator
  | bracket
  /-- A name that no word table knows. -/
  | word
  deriving DecidableEq, Repr, Inhabited

namespace Category

/-- The categories in the order in which they are listed to users. -/
def all : List Category :=
  [keyword, builtin, atom, number, string, comment, directive, operator, bracket, word]

/-- The name under which a category is printed. -/
def name : Category → String
  | keyword => "keyword"
  | builtin => "builtin"
  | atom => "atom"
  | number => "number"
  | string => "string"
  | comment => "comment"
  | directive => "meta"
  | operator => "operator"
  | bracket => "bracket"
  | word => "word"

/-- The category of a name. -/
def ofName? (s : String) : Option Category := all.find? (·.name == s)

/-- Comments and directives have no part in the structure of a program. -/
def isTransparent : Category → Bool
  | comment | directive => true
  | _ => false

theorem mem_all (c : Category) : c ∈ all := by cases c <;> decide

theorem ofName?_name (c : Category) : ofName? c.name = some c := by cases c <;> decide

end Category

/-! ## Brackets and signals -/

/-- The three kinds of brackets. -/
inductive Bracket
  | brace
  | square
  | paren
  deriving DecidableEq, Repr, Inhabited

/-- The character that opens a bracket. -/
def Bracket.openChar : Bracket → Char
  | brace => '\x7b'
  | square => '['
  | paren => '('

/-- The character that closes a bracket. -/
def Bracket.closeChar : Bracket → Char
  | brace => '\x7d'
  | square => ']'
  | paren => ')'

/-- The part that a token plays in the structure of a program. -/
inductive Signal
  | opening (bracket : Bracket)
  | closing (bracket : Bracket)
  | comma
  | semicolon
  | colon
  | dot
  /-- A keyword after which a statement of its own follows, such as `if` or `for`. -/
  | blockKeyword
  deriving DecidableEq, Repr, Inhabited

namespace Signal

/-- The punctuation characters with their signals. -/
def punctuation : List (Char × Signal) :=
  [('\x7b', .opening .brace), ('[', .opening .square), ('(', .opening .paren),
   ('\x7d', .closing .brace), (']', .closing .square), (')', .closing .paren),
   (',', .comma), (';', .semicolon), (':', .colon), ('.', .dot)]

/-- The signal of a punctuation character. -/
def ofChar? (c : Char) : Option Signal := punctuation.lookup c

/-- The punctuation character of a signal; a block keyword is none. -/
def char? : Signal → Option Char
  | opening b => some b.openChar
  | closing b => some b.closeChar
  | comma => some ','
  | semicolon => some ';'
  | colon => some ':'
  | dot => some '.'
  | blockKeyword => none

/-- A semicolon and a colon end a statement. -/
def endsStatement : Signal → Bool
  | semicolon | colon => true
  | _ => false

theorem ofChar?_of_char? {s : Signal} {c : Char} (h : s.char? = some c) : ofChar? c = some s := by
  cases s with
  | opening b => cases b <;> cases h <;> rfl
  | closing b => cases b <;> cases h <;> rfl
  | blockKeyword => cases h
  | _ => cases h; rfl

end Signal

/-! ## Tokens -/

/-- A piece of a line with its category; `start` and `stop` are byte offsets in the line. -/
structure Token where
  category : Category
  text : List Char
  start : Nat
  stop : Nat
  deriving DecidableEq, Repr, Inhabited

end ShaderText
