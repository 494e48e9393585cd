/-
The settings of the tools: how they are read from written values, and the layers of which they are
made up. A number may be written as a number, a truth value or a text, and so may a truth value, a
word list and the name of a hook.
-/
import Std.Data.TreeMap
import ShaderText.Decimal
import ShaderText.Listing
import ShaderText.Settings.Layer
import ShaderText.Toml.Document

namespace ShaderText

/-- The settings of the tools. -/
structure Settings where
  indentUnit : Nat
  tabSize : Nat
  multiLineStrings : Bool
  /-- Word lists that take the place of those of the shading language. -/
  keywords : Option String
  builtins : Option String
  blockKeywords : Option String
  atoms : Option String
  /-- The name of a hook for each trigger, or a name that turns the trigger off. -/
  hooks : Std.TreeMap String String
  format : OutputFormat

namespace Settings

/-! ## Reading written values -/

/-- A number of 64 bits: digits, with a plus sign or not. -/
def naturalOfText? (s : String) : Option Nat :=
  let digits := match s.toList with
    | '+' :: cs => cs
    | cs => cs
  let n := digits.foldl (fun n c => n * 10 + (c.toNat - '0'.toNat)) 0
  if digits.isEmpty || !digits.all Char.isDigit || UInt64.size ≤ n then none else some n

/-- A count. A fraction is rounded, a half away from zero, and cut to the range of counts. -/
def count? : Datum → Option Nat
  | .int n => if 0 ≤ n then some n.toNat else none
  | .bool b => some b.toNat
  | .float x => some x.round.toUInt64.toNat
  | .text s =>
    if ["true", "on", "yes"].contains (lowerCase s) then some 1
    else if ["false", "off", "no"].contains (lowerCase s) then some 0
    else naturalOfText? s
  | .null | .moment _ | .list _ | .table _ => none

/-- A truth value; of numbers, only zero is false. -/
def flag? : Datum → Option Bool
  | .bool b => some b
  | .int n => some (n != 0)
  | .float x => some (x != 0.0)
  | .text s =>
    if ["1", "true", "on", "yes"].contains (lowerCase s) then some true
    else if ["0", "false", "off", "no"].contains (lowerCase s) then some false
    else none
  | .null | .moment _ | .list _ | .table _ => none

/-- A text; a number, a date or a time stands for the text that writes it. -/
def text? : Datum → Option String
  | .text s => some s
  | .int n => some (toString n)
  | .float x => some (floatText x)
  | .bool b => some (if b then "true" else "false")
  | .moment m => some (String.ofList m.chars)
  | .null | .list _ | .table _ => none

/-- A text that may be left out. -/
def optionalText? : Datum → Option (Option String)
  | .null => some none
  | d => (text? d).map some

/-- A format, given by its name or by a table whose only key is its name, in letters of any case. -/
def format? : Datum → Option OutputFormat
  | .text s => OutputFormat.ofName? (lowerCase s)
  | .table [(key, _)] => OutputFormat.ofName? (lowerCase key)
  | _ => none

/-- A required field of a record, which is written as a table or as the list of its fields. -/
def field? (record : Datum) (key : String) (position : Nat) : Option Datum :=
  match record with
  | .table entries => entries.lookup key
  | .list items => items[position]?
  | _ => none

/-- A field that a table may leave out. -/
def optionalField? (record : Datum) (key : String) (position : Nat) : Option Datum :=
  match record with
  | .table entries => some ((entries.lookup key).getD .null)
  | d => field? d key position

/-- The names of the hooks; they are always written as a table. -/
def hooks? : Datum → Option (Std.TreeMap String String)
  | .table entries => entries.foldlM (fun hooks (trigger, d) =>
      (text? d).map fun name => hooks.insert trigger name) ∅
  | _ => none

/-- The settings that a table writes. Keys that mean nothing are passed over. -/
def ofDatum? (d : Datum) : Option Settings := do
  let mode ← d.get? "mode"
  let grammar := (d.get? "grammar").getD .emptyTable
  let words (key : String) (position : Nat) : Option (Option String) :=
    (optionalField? grammar key position).bind optionalText?
  let output ← d.get? "output"
  return {
    indentUnit := ← (field? mode "indent_unit" 0).bind count?
    tabSize := ← (field? mode "tab_size" 1).bind count?
    multiLineStrings := ← (field? mode "multi_line_strings" 2).bind flag?
    keywords := ← words "keywords" 0
    builtins := ← words "builtins" 1
    blockKeywords := ← words "block_keywords" 2
    atoms := ← words "atoms" 3
    hooks := ← hooks? ((d.get? "hooks").getD .emptyTable)
    format := ← (field? output "format" 0).bind format? }

/-! ## Layers -/

/-- The settings under all layers. -/
def base : Datum := .table [
  ("mode", .table [("indent_unit", .int 2), ("tab_size", .int 4),
    ("multi_line_strings", .bool false)]),
  ("hooks", .table [("#", .text "preprocessor")]),
  ("output", .table [("format", .text "simple")])]

/-- One layer of settings. -/
inductive Layer
  /-- A text in the TOML format. -/
  | file (text : String)
  /-- A file that must be there and is not. -/
  | missingFile
  /-- A single value, which counts more than every file. -/
  | override (key : String) (value : Datum)
  deriving Inhabited

/-- Why settings cannot be loaded. -/
inductive LoadError
  | invalidKey (key : String)
  | missingFile
  | malformedText
  | unsuitableValue
  deriving DecidableEq, Repr, Inhabited

/-- Lays a file over settings. -/
def layFile (settings : Datum) : Layer → Except LoadError Datum
  | .file text =>
    match Toml.read? text with
    | some table => .ok (layTable table settings)
    | none => .error .malformedText
  | .missingFile => .error .missingFile
  | .override .. => .ok settings

/-- The single values among the layers, with the steps that their keys write. -/
def overrides (layers : List Layer) : Except LoadError (List (List KeyStep × Datum)) :=
  layers.foldrM (fun layer rest =>
    match layer with
    | .override key value =>
      match keySteps? key with
      | some steps => .ok ((steps, value) :: rest)
      | none => .error (.invalidKey key)
    | _ => .ok rest) []

/-- The settings that layers make up, the files in order and the single values above them all. -/
def load (layers : List Layer) : Except LoadError Settings := do
  let values ← overrides layers
  let files ← layers.foldlM layFile base
  let all := values.foldl (fun base (steps, value) => layUnder value steps base) files
  match ofDatum? all with
  | some settings => .ok settings
  | none => .error .unsuitableValue

end Settings

end ShaderText
