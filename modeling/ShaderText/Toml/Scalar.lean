/-
The words of the TOML format: blanks and comments, keys, strings and numbers. Every reader looks at
the start of a text and gives what it read and what is left, or nothing if the text is malformed.
-/
import ShaderText.Datum
import ShaderText.Text.Split

namespace ShaderText.Toml

/-! ## Characters, blanks and comments -/

/-- A character that may stand in a comment or in a one-line string: no control but the tab. -/
def isTextChar (c : Char) : Bool := c == '\t' || (0x20 ≤ c.toNat && c.toNat != 0x7F)

def isHexDigit (c : Char) : Bool := c.isDigit || ('a' ≤ c && c ≤ 'f') || ('A' ≤ c && c ≤ 'F')

/-- The value of a hexadecimal digit. -/
def hexValue (c : Char) : Nat :=
  if c.isDigit then c.toNat - '0'.toNat
  else if 'a' ≤ c then c.toNat - 'a'.toNat + 10
  else c.toNat - 'A'.toNat + 10

/-- The number that digits write in a base. -/
def numberOfDigits (base : Nat) (digits : List Char) : Nat :=
  digits.foldl (fun n c => n * base + hexValue c) 0

/-- A text without the spaces and tabs that it starts with. -/
def skipBlanks (cs : List Char) : List Char := cs.dropWhile fun c => c == ' ' || c == '\t'

/-- A text without the spaces, tabs and line breaks that it starts with. -/
def skipBlankLines : List Char → List Char
  | '\r' :: '\n' :: cs => skipBlankLines cs
  | c :: cs => if c = ' ' ∨ c = '\t' ∨ c = '\n' then skipBlankLines cs else c :: cs
  | [] => []

/-- A text without the comment that it starts with, if there is one. -/
def skipComment : List Char → List Char
  | '#' :: cs => cs.dropWhile isTextChar
  | cs => cs

/-- What follows the line break that a text starts with. -/
def lineBreak? : List Char → Option (List Char)
  | '\n' :: cs => some cs
  | '\r' :: '\n' :: cs => some cs
  | _ => none

/-- What follows the end of a line, before which only blanks and a comment may stand. -/
def endOfLine? (cs : List Char) : Option (List Char) :=
  match skipComment (skipBlanks cs) with
  | [] => some []
  | cs => lineBreak? cs

theorem length_skipBlanks_le (cs : List Char) : (skipBlanks cs).length ≤ cs.length :=
  (List.dropWhile_sublist _).length_le

theorem length_skipBlankLines_le (cs : List Char) : (skipBlankLines cs).length ≤ cs.length := by
  fun_induction skipBlankLines cs with
  | case1 cs ih => exact Nat.le_succ_of_le (Nat.le_succ_of_le ih)
  | case2 c cs _ _ ih => exact Nat.le_succ_of_le ih
  | case3 => exact Nat.le_refl _
  | case4 => exact Nat.le_refl _

theorem length_lineBreak?_lt {cs rest : List Char} (h : lineBreak? cs = some rest) :
    rest.length < cs.length := by
  unfold lineBreak? at h
  split at h
  · cases h; exact Nat.lt_succ_self _
  · cases h; exact Nat.lt_succ_of_lt (Nat.lt_succ_self _)
  · cases h

/-! ## Strings -/

/-- The characters that stand for themselves or for a control behind a backslash. -/
def simpleEscapes : List (Char × Char) :=
  [('b', '\x08'), ('t', '\t'), ('n', '\n'), ('f', '\x0c'), ('r', '\r'), ('"', '"'), ('\\', '\\')]

/-- The character of a code point; surrogates and what lies beyond the last code point have none. -/
def charOfCode? (n : Nat) : Option Char :=
  if n.isValidChar then some (Char.ofNat n) else none

/-- The character that `count` hexadecimal digits write. -/
def codeEscape? (count : Nat) (cs : List Char) : Option (Char × List Char) :=
  let digits := cs.take count
  if digits.length = count ∧ digits.all isHexDigit then
    (charOfCode? (numberOfDigits 16 digits)).map (·, cs.drop count)
  else none

/-- The character that follows a backslash, as it is meant. -/
def escape? : List Char → Option (Char × List Char)
  | [] => none
  | c :: cs =>
    match simpleEscapes.lookup c with
    | some d => some (d, cs)
    | none => if c = 'u' then codeEscape? 4 cs else if c = 'U' then codeEscape? 8 cs else none

theorem length_codeEscape?_le {count : Nat} {cs rest : List Char} {c : Char}
    (h : codeEscape? count cs = some (c, rest)) : rest.length ≤ cs.length := by
  unfold codeEscape? at h
  dsimp only at h
  split at h
  · obtain ⟨d, -, hd⟩ := Option.map_eq_some_iff.1 h
    cases hd
    simp
  · cases h

theorem length_escape?_lt {cs rest : List Char} {c : Char} (h : escape? cs = some (c, rest)) :
    rest.length < cs.length := by
  cases cs with
  | nil => cases h
  | cons d ds =>
    simp only [escape?] at h
    split at h
    · cases h; simp
    · split at h
      · exact Nat.lt_succ_of_le (length_codeEscape?_le h)
      · split at h
        · exact Nat.lt_succ_of_le (length_codeEscape?_le h)
        · cases h

/-- A one-line string in double quotes, from behind its first quote. -/
def basicString? (cs : List Char) : Option (List Char × List Char) :=
  match cs with
  | [] => none
  | c :: cs =>
    if c = '"' then some ([], cs)
    else if c = '\\' then
      match h : escape? cs with
      | none => none
      | some (d, rest) =>
        have := length_escape?_lt h
        (basicString? rest).map fun (text, rest) => (d :: text, rest)
    else if isTextChar c then (basicString? cs).map fun (text, rest) => (c :: text, rest)
    else none
termination_by cs.length
decreasing_by
  · exact Nat.lt_succ_of_lt this
  · exact Nat.lt_succ_self _

/-- A one-line string in single quotes, from behind its first quote; nothing in it is escaped. -/
def literalString? : List Char → Option (List Char × List Char)
  | [] => none
  | c :: cs =>
    if c = '\x27' then some ([], cs)
    else if isTextChar c then (literalString? cs).map fun (text, rest) => (c :: text, rest)
    else none

/-- What follows three quotes, the last of five at most, and the quotes among them that belong to
the string they close. -/
def closingQuotes? (quote : Char) (cs : List Char) : Option (List Char × List Char) :=
  if [quote, quote, quote].isPrefixOf cs then
    let more := ((cs.drop 3).take 2).takeWhile (· == quote)
    some (more, cs.drop (3 + more.length))
  else none

/-- Reads one character of a string over several lines; a line break of either kind is a line
feed. In one with escapes, a backslash at the end of a line takes away all blanks and line breaks
that follow, and gives no character. -/
def longStringChar? (escapes : Bool) : List Char → Option (Option Char × List Char)
  | [] => none
  | c :: cs =>
    if escapes = true ∧ c = '\\' then
      match lineBreak? (skipBlanks cs) with
      | some rest => some (none, skipBlankLines rest)
      | none => (escape? cs).map fun (d, rest) => (some d, rest)
    else
      match lineBreak? (c :: cs) with
      | some rest => some (some '\n', rest)
      | none => if isTextChar c then some (some c, cs) else none

theorem length_longStringChar?_lt {escapes : Bool} {cs rest : List Char} {c : Option Char}
    (h : longStringChar? escapes cs = some (c, rest)) : rest.length < cs.length := by
  cases cs with
  | nil => cases h
  | cons d ds =>
    simp only [longStringChar?] at h
    split at h
    · split at h
      · rename_i mid hmid
        cases h
        have h1 := length_lineBreak?_lt hmid
        have h2 := length_skipBlanks_le ds
        exact Nat.lt_succ_of_lt (Nat.lt_of_le_of_lt (length_skipBlankLines_le _)
          (Nat.lt_of_lt_of_le h1 h2))
      · obtain ⟨e, he, heq⟩ := Option.map_eq_some_iff.1 h
        cases heq
        exact Nat.lt_succ_of_lt (length_escape?_lt he)
    · split at h
      · rename_i hb
        cases h
        exact length_lineBreak?_lt hb
      · split at h
        · cases h
          exact Nat.lt_succ_self _
        · cases h

/-- A string over several lines, from behind its first quotes and a line break directly behind
them. -/
def longString? (quote : Char) (escapes : Bool) (cs : List Char) :
    Option (List Char × List Char) :=
  match closingQuotes? quote cs with
  | some done => some done
  | none =>
    match h : longStringChar? escapes cs with
    | none => none
    | some (c, rest) =>
      have := length_longStringChar?_lt h
      (longString? quote escapes rest).map fun (text, rest) => (c.toList ++ text, rest)
termination_by cs.length
decreasing_by exact this

/-- A text without the line break that it starts with, if there is one. -/
def skipLineBreak (cs : List Char) : List Char := (lineBreak? cs).getD cs

/-- The string that a text starts with. -/
def string? (cs : List Char) : Option (List Char × List Char) :=
  match cs with
  | '"' :: '"' :: '"' :: cs => longString? '"' true (skipLineBreak cs)
  | '\x27' :: '\x27' :: '\x27' :: cs => longString? '\x27' false (skipLineBreak cs)
  | '"' :: cs => basicString? cs
  | '\x27' :: cs => literalString? cs
  | _ => none

/-! ## Keys -/

def isBareKeyChar (c : Char) : Bool := c.isAlphanum || c == '_' || c == '-'

/-- One part of a key: bare, or quoted on one line. -/
def keyPart? (cs : List Char) : Option (String × List Char) :=
  match cs with
  | '"' :: cs => (basicString? cs).map fun (text, rest) => (String.ofList text, rest)
  | '\x27' :: cs => (literalString? cs).map fun (text, rest) => (String.ofList text, rest)
  | cs =>
    let bare := cs.takeWhile isBareKeyChar
    if bare.isEmpty then none else some (String.ofList bare, cs.drop bare.length)

/-- The parts of a key with dots between them, a limited number of them. -/
def key? : Nat → List Char → Option (List String × List Char)
  | 0, _ => none
  | limit + 1, cs => do
    let (part, rest) ← keyPart? (skipBlanks cs)
    match skipBlanks rest with
    | '.' :: rest => do
      let (parts, rest) ← key? limit rest
      return (part :: parts, rest)
    | rest => return ([part], rest)

/-! ## Numbers -/

/-- Digits, with single underscores between them, without the underscores. -/
def digits? (isDigit : Char → Bool) (cs : List Char) : Option (List Char) :=
  let groups := splitAtChar '_' cs
  if groups.all fun g => !g.isEmpty && g.all isDigit then some groups.flatten else none

/-- Decimal digits without a leading zero. -/
def decimalDigits? (cs : List Char) : Option (List Char) := do
  let digits ← digits? Char.isDigit cs
  if digits.length > 1 ∧ digits.head? = some '0' then none else some digits

/-- A number without its sign, and whether the sign is a minus. -/
def splitSign (cs : List Char) : Bool × List Char :=
  match cs with
  | '-' :: cs => (true, cs)
  | '+' :: cs => (false, cs)
  | cs => (false, cs)

/-- An integer of 64 bits; only a decimal one has a sign. -/
def integer? (cs : List Char) : Option Int := do
  let n : Int ← match cs with
    | '0' :: 'x' :: ds => (digits? isHexDigit ds).map fun ds => (numberOfDigits 16 ds : Int)
    | '0' :: 'o' :: ds =>
      (digits? (fun c => '0' ≤ c && c ≤ '7') ds).map fun ds => (numberOfDigits 8 ds : Int)
    | '0' :: 'b' :: ds =>
      (digits? (fun c => c == '0' || c == '1') ds).map fun ds => (numberOfDigits 2 ds : Int)
    | cs =>
      let (negative, ds) := splitSign cs
      (decimalDigits? ds).map fun ds =>
        if negative then -(numberOfDigits 10 ds : Int) else numberOfDigits 10 ds
  if Int64.minValue.toInt ≤ n ∧ n ≤ Int64.maxValue.toInt then some n else none

/-- The floating-point number nearest to `mantissa * 10 ^ exponent`. Beyond the range of such
numbers the exponent makes no difference and is cut, so that the power stays small. -/
def floatOfDecimal (mantissa : Nat) (exponent : Int) : Float :=
  let size : Int := (Nat.toDigits 10 mantissa).length
  let exponent := max (-400 - size) (min exponent (400 - size))
  Float.ofScientific mantissa (exponent < 0) exponent.natAbs

/-- The exponent behind a mantissa: an `e`, a sign and digits. -/
def exponent? : List Char → Option Int
  | [] => some 0
  | c :: cs =>
    if c = 'e' ∨ c = 'E' then
      let (negative, ds) := splitSign cs
      (digits? Char.isDigit ds).map fun ds =>
        if negative then -(numberOfDigits 10 ds : Int) else numberOfDigits 10 ds
    else none

/-- A floating-point number: a fraction, an exponent or both behind the whole part. One that is too
large is refused. -/
def float? (cs : List Char) : Option Float := do
  let (negative, body) := splitSign cs
  let signed (x : Float) := if negative then -x else x
  if body = ['i', 'n', 'f'] then return signed (1.0 / 0.0)
  if body = ['n', 'a', 'n'] then return signed (0.0 / 0.0)
  let isPart (c : Char) := c.isDigit || c == '_'
  let whole ← decimalDigits? (body.takeWhile isPart)
  let (fraction, rest) ← match body.dropWhile isPart with
    | '.' :: cs => (digits? Char.isDigit (cs.takeWhile isPart)).map (·, cs.dropWhile isPart)
    | [] => none
    | cs => some ([], cs)
  let exponent ← exponent? rest
  let x := signed (floatOfDecimal (numberOfDigits 10 (whole ++ fraction))
    (exponent - fraction.length))
  if x == 1.0 / 0.0 then none else some x

/-- A truth value or a number, with what follows it. -/
def wordValue? (cs : List Char) : Option (Datum × List Char) :=
  let isPart (c : Char) := c.isAlphanum || c == '_' || c == '+' || c == '-' || c == '.'
  let word := cs.takeWhile isPart
  let rest := cs.dropWhile isPart
  if word = ['t', 'r', 'u', 'e'] then some (.bool true, rest)
  else if word = ['f', 'a', 'l', 's', 'e'] then some (.bool false, rest)
  else match integer? word with
    | some n => some (.int n, rest)
    | none => (float? word).map fun x => (.float x, rest)

end ShaderText.Toml
