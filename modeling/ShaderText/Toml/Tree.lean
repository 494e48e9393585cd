/-
The table that a TOML text builds up, line by line. A key may be given once, a table may be opened
by one header, and keys with dots may not reach into a table that a header opened; the tree keeps
for each table how it came about, so that each rule can be checked when a line is added.
-/
import ShaderText.Datum

namespace ShaderText.Toml

/-- How a table came about. -/
inductive Origin
  /-- As part of the path of a header. -/
  | implied
  /-- As part of a key with dots. -/
  | dotted
  /-- By its own header. -/
  | header
  deriving DecidableEq, Repr, Inhabited

/-- What stands at a key: a value, a table that may still grow, or a list of such tables, of which
the last one grows. -/
inductive Node
  | value (value : Datum)
  | table (origin : Origin) (entries : List (String × Node))
  | tables (before : List (List (String × Node))) (last : List (String × Node))
  deriving Inhabited

/-- The keys of a table with what stands at them. -/
abbrev Entries := List (String × Node)

/-- Sets what stands at a key, behind all others. -/
def setLast (key : String) (node : Node) (es : Entries) : Entries :=
  es.filter (fun e => e.1 != key) ++ [(key, node)]

/-- Changes what stands at the end of a path and puts it there, or fails. Tables on the way that are
not there come about by implication. -/
def alterAt (put : String → Node → Entries → Entries) (change : Option Node → Option Node) :
    List String → Entries → Option Entries
  | [], _ => none
  | [key], es => (change (es.lookup key)).map fun node => put key node es
  | key :: path, es =>
    let node : Option Node := match es.lookup key with
      | none => (alterAt put change path []).map (.table .implied)
      | some (.table origin inner) => (alterAt put change path inner).map (.table origin)
      | some (.tables before last) => (alterAt put change path last).map (.tables before)
      | some (.value _) => none
    node.map fun node => setEntry key node es

/-- Opens a table by its header. One that came about by implication moves behind the others. -/
def openTable (path : List String) (es : Entries) : Option Entries :=
  alterAt setLast (fun
    | none => some (.table .header [])
    | some (.table .implied inner) => some (.table .header inner)
    | some _ => none) path es

/-- Opens one more table of a list by its header. -/
def openListed (path : List String) (es : Entries) : Option Entries :=
  alterAt setEntry (fun
    | none => some (.tables [] [])
    | some (.tables before last) => some (.tables (before ++ [last]) [])
    | some _ => none) path es

/-- Adds a value to a table. The tables on the way come about by the dots of the key; the last of
them must be such a table, and none of the others may have a header of its own. -/
def addValue (value : Datum) : List String → Entries → Option Entries
  | [], _ => none
  | [key], es =>
    match es.lookup key with
    | none => some (setEntry key (.value value) es)
    | some _ => none
  | key :: path, es =>
    let isLast := path.length = 1
    let node : Option Node := match es.lookup key with
      | none => (addValue value path []).map (.table .dotted)
      | some (.table .dotted inner) => (addValue value path inner).map (.table .dotted)
      | some (.table .implied inner) =>
        if isLast then none else (addValue value path inner).map (.table .implied)
      | some (.tables before last) =>
        if isLast then none else (addValue value path last).map (.tables before)
      | some (.table .header _) | some (.value _) => none
    node.map fun node => setEntry key node es

/-- Adds a value to the table that a header opened. -/
def addUnder (headerPath key : List String) (value : Datum) (es : Entries) : Option Entries :=
  if headerPath.isEmpty then addValue value key es
  else alterAt setEntry (fun
    | some (.table origin inner) => (addValue value key inner).map (.table origin)
    | some (.tables before last) => (addValue value key last).map (.tables before)
    | _ => none) headerPath es

mutual

/-- The value of a node. -/
def Node.datum : Node → Datum
  | .value d => d
  | .table _ es => .table (datumEntries es)
  | .tables before last => .list (datumTables before ++ [.table (datumEntries last)])

/-- The values at the keys of a table. -/
def datumEntries : Entries → List (String × Datum)
  | [] => []
  | (key, node) :: es => (key, node.datum) :: datumEntries es

/-- The values of the tables of a list. -/
def datumTables : List Entries → List Datum
  | [] => []
  | es :: more => .table (datumEntries es) :: datumTables more

end

end ShaderText.Toml
