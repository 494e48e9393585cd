/-
Laying settings over settings. Tables are laid over tables key by key, and what is laid last
counts; anything but a table takes the place of what stood there; an empty table changes nothing.
Keys are brought to lower case before they are read as paths, and on every table that is laid over
another; a value that takes a place as a whole, such as a list, keeps its keys as they are.
-/
import ShaderText.Datum
import ShaderText.Settings.Key

namespace ShaderText.Settings

mutual

/-- Lays a value over what stands at a key; what is no table becomes one. -/
def layAt (key : String) (value : Datum) (base : Datum) : Datum :=
  match value with
  | .table entries =>
    .table (setEntry key (layEntries entries ((base.get? key).getD .emptyTable)) base.entries)
  | value => .table (setEntry key value base.entries)
termination_by sizeOf value

/-- Lays the entries of a table over a value, one after the other, with their keys in lower case. -/
def layEntries (entries : List (String × Datum)) (base : Datum) : Datum :=
  match entries with
  | [] => base
  | (key, value) :: entries => layEntries entries (layAt (lowerCase key) value base)
termination_by sizeOf entries

end

/-- The position that an index means in a list. -/
def position (index : Int) (length : Nat) : Nat :=
  if 0 ≤ index then index.toNat else length - index.natAbs

/-- A list with an item changed; a list that is too short is filled up. -/
def changeItem (items : List Datum) (n : Nat) (change : Datum → Datum) : List Datum :=
  let items := items ++ List.replicate (n + 1 - items.length) .null
  items.set n (change (items.getD n .null))

/-- Lays a value over what stands at the end of some steps. What is no table or no list, where a
step needs one, becomes one. -/
def layUnder (value : Datum) : List KeyStep → Datum → Datum
  | [], _ => value
  | [.child name], base => layAt name value base
  | .child name :: steps, base =>
    let below := (base.get? name).getD .null
    .table (setEntry name (layUnder value steps below) base.entries)
  | .item index :: steps, base =>
    .list (changeItem base.items (position index base.items.length) (layUnder value steps))

/-- Lays a table of settings over others; its keys may reach into nested tables. -/
def layTable (table base : Datum) : Datum :=
  table.entries.foldl (fun base (key, value) =>
    match keySteps? (lowerCase key) with
    | some steps => layUnder value steps base
    | none => layAt (lowerCase key) value base) base

end ShaderText.Settings
