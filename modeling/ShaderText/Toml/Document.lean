/-
TOML texts: values with their lists and inline tables, and the lines of a text, each of which is
empty, opens a table or gives a value to a key. A text is read into the table it stands for, or
refused as a whole.
-/
import ShaderText.Toml.Date
import ShaderText.Toml.Tree

namespace ShaderText.Toml

/-! ## Limits -/

/-- How many lists and inline tables may stand one in the other. -/
def maxDepth : Nat := 79

/-- How many parts a key may have. -/
def maxKeyParts : Nat := 79

/-! ## Values -/

/-- A date or a time, a truth value or a number, with what follows it. -/
def plainValue? (cs : List Char) : Option (Datum × List Char) :=
  match moment? .plain cs with
  | some (moment, rest) => some (.moment moment, rest)
  | none => wordValue? cs

/-- A text without the blanks, comments and line breaks that it starts with; `fuel` bounds the
number of its lines. -/
def skipLines : Nat → List Char → List Char
  | 0, cs => cs
  | fuel + 1, cs =>
    let cs := skipComment (skipBlanks cs)
    match lineBreak? cs with
    | some rest => skipLines fuel rest
    | none => cs

mutual

/-- The value that a text starts with; `fuel` bounds the steps of reading it, `depth` the lists and
inline tables in it. -/
def value? : Nat → Nat → List Char → Option (Datum × List Char)
  | 0, _, _ => none
  | fuel + 1, depth, cs =>
    match cs, depth with
    | '[' :: _, 0 | '\x7b' :: _, 0 => none
    | '[' :: cs, depth + 1 =>
      (listItems? fuel depth cs).map fun (items, rest) => (.list items, rest)
    | '\x7b' :: cs, depth + 1 =>
      match skipBlanks cs with
      | '\x7d' :: rest => some (.emptyTable, rest)
      | cs =>
        (inlineEntries? fuel depth [] cs).map fun (es, rest) => (.table (datumEntries es), rest)
    | '"' :: _, _ | '\x27' :: _, _ =>
      (string? cs).map fun (text, rest) => (.text (String.ofList text), rest)
    | cs, _ => plainValue? cs

/-- The items of a list, from behind its bracket or a comma on. -/
def listItems? : Nat → Nat → List Char → Option (List Datum × List Char)
  | 0, _, _ => none
  | fuel + 1, depth, cs =>
    match skipLines cs.length cs with
    | ']' :: rest => some ([], rest)
    | cs => do
      let (item, rest) ← value? fuel depth cs
      match skipLines rest.length rest with
      | ',' :: rest => do
        let (items, rest) ← listItems? fuel depth rest
        return (item :: items, rest)
      | ']' :: rest => return ([item], rest)
      | _ => none

/-- The entries of an inline table, from a key on. -/
def inlineEntries? : Nat → Nat → Entries → List Char → Option (Entries × List Char)
  | 0, _, _, _ => none
  | fuel + 1, depth, es, cs => do
    let (key, rest) ← key? maxKeyParts cs
    match rest with
    | '=' :: rest => do
      let (value, rest) ← value? fuel depth (skipBlanks rest)
      let es ← addValue value key es
      match skipBlanks rest with
      | ',' :: rest => inlineEntries? fuel depth es rest
      | '\x7d' :: rest => return (es, rest)
      | _ => none
    | _ => none

end

/-! ## Lines -/

/-- The table built up so far, and the path of the header under which the next line stands. -/
structure Draft where
  entries : Entries
  path : List String
  deriving Inhabited

/-- The key in a header that ends with `closer`, and what follows the line. -/
def header? (closer cs : List Char) : Option (List String × List Char) := do
  let (key, rest) ← key? maxKeyParts cs
  if closer.isPrefixOf rest then
    let rest ← endOfLine? (rest.drop closer.length)
    return (key, rest)
  else none

/-- Reads one line into a draft, and gives what follows the line. -/
def line? (draft : Draft) (cs : List Char) : Option (Draft × List Char) :=
  match endOfLine? cs with
  | some rest => some (draft, rest)
  | none =>
    match skipBlanks cs with
    | '[' :: '[' :: cs => do
      let (path, rest) ← header? [']', ']'] cs
      return (⟨← openListed path draft.entries, path⟩, rest)
    | '[' :: cs => do
      let (path, rest) ← header? [']'] cs
      return (⟨← openTable path draft.entries, path⟩, rest)
    | cs => do
      let (key, rest) ← key? maxKeyParts cs
      match rest with
      | '=' :: rest => do
        let (value, rest) ← value? (2 * rest.length + 2) maxDepth (skipBlanks rest)
        let rest ← endOfLine? rest
        return (⟨← addUnder draft.path key value draft.entries, draft.path⟩, rest)
      | _ => none

/-- Reads all lines into a draft; `fuel` bounds their number. -/
def lines? : Nat → Draft → List Char → Option Draft
  | _, draft, [] => some draft
  | 0, _, _ => none
  | fuel + 1, draft, cs => do
    let (draft, rest) ← line? draft cs
    lines? fuel draft rest

/-! ## Dates in tables -/

/-- The key under which a table hands over a date or a time. -/
def momentKey : String := "$__toml_private_datetime"

mutual

/-- A value with the dates and times that tables in it hand over. A table does so if its first key
is `momentKey`: the value there has to be a string that writes one, and the rest of the table counts
for nothing. -/
def handOver? : Datum → Option Datum
  | .table [] => some .emptyTable
  | .table ((key, d) :: entries) =>
    if key = momentKey then
      match d with
      | .text text => (quotedMoment? text).map .moment
      | _ => none
    else do return .table ((key, ← handOver? d) :: (← handOverEntries? entries))
  | .list items => (handOverItems? items).map .list
  | d => some d

/-- The entries of a table with the dates and times that are handed over in them. -/
def handOverEntries? : List (String × Datum) → Option (List (String × Datum))
  | [] => some []
  | (key, d) :: entries => do return (key, ← handOver? d) :: (← handOverEntries? entries)

/-- The items of a list with the dates and times that are handed over in them. -/
def handOverItems? : List Datum → Option (List Datum)
  | [] => some []
  | d :: items => do return (← handOver? d) :: (← handOverItems? items)

end

/-! ## Whole texts -/

/-- The table that a text stands for; a byte order mark in front of it is passed over. -/
def read? (text : String) : Option Datum := do
  let cs := match text.toList with
    | '\ufeff' :: cs => cs
    | cs => cs
  let draft ← lines? (cs.length + 1) ⟨[], []⟩ cs
  match ← handOver? (.table (datumEntries draft.entries)) with
  | .table entries => some (.table entries)
  | _ => none

end ShaderText.Toml
