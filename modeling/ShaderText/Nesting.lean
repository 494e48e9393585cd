/-
The nesting of a program at a place in its text: one level for each open bracket and for each
statement that is not ended yet, above a root that is always there. Each significant token updates
the nesting, and the innermost level alone tells how far the next line is indented.

A level is aligned when something followed its opening token on the same line; this is not known
until either a token follows or a new line starts.
-/
import ShaderText.Column
import ShaderText.Token

namespace ShaderText

/-! ## Levels -/

/-- What opened a level. -/
inductive LevelKind
  /-- The root. -/
  | top
  /-- A statement that is not ended yet. -/
  | statement
  | bracket (bracket : Bracket)
  deriving DecidableEq, Repr, Inhabited

/-- The character that closes a level of this kind; only a bracket has one. -/
def LevelKind.closeChar? : LevelKind → Option Char
  | bracket b => some b.closeChar
  | top | statement => none

def LevelKind.isBracket : LevelKind → Bool
  | bracket _ => true
  | top | statement => false

/-- One level of nesting. -/
structure Level where
  /-- The indentation of the line on which the level was opened. Only the root's is ever
  negative, when a program is laid out at a base column below its indent unit. -/
  indented : Int
  /-- The column of the token that opened the level. -/
  column : Nat
  kind : LevelKind
  /-- Whether something followed the opening token on its line, once that is known. -/
  aligned : Option Bool
  deriving DecidableEq, Repr, Inhabited

namespace Level

/-- The level that a token at `column` opens on a line indented by `indented`. -/
def opened (indented column : Nat) (kind : LevelKind) : Level :=
  ⟨signed indented, column, kind, none⟩

/-- Decides the alignment of a level if it is not known yet. -/
def settle (l : Level) (aligned : Bool) : Level :=
  { l with aligned := some (l.aligned.getD aligned) }

def isStatement (l : Level) : Bool := l.kind == .statement

@[simp] theorem kind_settle (l : Level) (b : Bool) : (l.settle b).kind = l.kind := rfl

@[simp] theorem column_settle (l : Level) (b : Bool) : (l.settle b).column = l.column := rfl

@[simp] theorem indented_settle (l : Level) (b : Bool) : (l.settle b).indented = l.indented := rfl

theorem settle_settle (l : Level) (b b' : Bool) : (l.settle b).settle b' = l.settle b := rfl

end Level

/-! ## The stack -/

/-- A root level and the levels nested in it, the innermost first. -/
structure Nesting where
  root : Level
  inner : List Level
  deriving DecidableEq, Repr, Inhabited

namespace Nesting

/-- The root alone; what stands directly in it is indented one unit more than `indented`. -/
def ofRoot (indented : Int) : Nesting := ⟨⟨indented, 0, .top, some false⟩, []⟩

/-- The innermost level. -/
def top (n : Nesting) : Level := n.inner.headD n.root

/-- The nesting with its innermost level changed. -/
def mapTop (n : Nesting) (f : Level → Level) : Nesting :=
  match n.inner with
  | [] => { n with root := f n.root }
  | l :: ls => { n with inner := f l :: ls }

def push (n : Nesting) (l : Level) : Nesting := { n with inner := l :: n.inner }

/-- The innermost level and the nesting without it; the root is never removed. -/
def pop? (n : Nesting) : Option (Level × Nesting) :=
  match n.inner with
  | [] => none
  | l :: ls => some (l, { n with inner := ls })

/-- The number of levels, the root included. -/
def depth (n : Nesting) : Nat := n.inner.length + 1

/-- Nothing but the root. -/
def isRoot (n : Nesting) : Bool := n.inner.isEmpty

/-- The levels from the root inwards. -/
def levels (n : Nesting) : List Level := n.root :: n.inner.reverse

/-- The kinds of the levels from the root inwards. -/
def kinds (n : Nesting) : List LevelKind := n.levels.map Level.kind

/-- Decides the alignment of the innermost level if it is not known yet. -/
def settle (n : Nesting) (aligned : Bool) : Nesting := n.mapTop (·.settle aligned)

theorem top_push (n : Nesting) (l : Level) : (n.push l).top = l := rfl

theorem pop?_push (n : Nesting) (l : Level) : (n.push l).pop? = some (l, n) := rfl

theorem top_mapTop (n : Nesting) (f : Level → Level) : (n.mapTop f).top = f n.top := by
  obtain ⟨root, inner⟩ := n
  cases inner <;> rfl

theorem depth_mapTop (n : Nesting) (f : Level → Level) : (n.mapTop f).depth = n.depth := by
  obtain ⟨root, inner⟩ := n
  cases inner <;> rfl

theorem depth_pos (n : Nesting) : 0 < n.depth := Nat.succ_pos _

theorem settle_settle (n : Nesting) (b b' : Bool) : (n.settle b).settle b' = n.settle b := by
  obtain ⟨root, inner⟩ := n
  cases inner <;> rfl

/-! ## Updating -/

/-- Whether a token that neither opens nor closes anything opens a statement: it does at the root
and in braces, and in a statement if it is a block keyword. -/
def opensStatement : LevelKind → Option Signal → Bool
  | .top, _ => true
  | .bracket .brace, _ => true
  | .statement, signal => signal == some .blockKeyword
  | .bracket _, _ => false

/-- The nesting without the statements that are innermost. -/
def dropStatements (n : Nesting) : Nesting :=
  { n with inner := n.inner.dropWhile Level.isStatement }

/-- The nesting without its innermost level, and the indentation that the line has from there on:
after a bracket it is that of the line of its opener. -/
def close (n : Nesting) (indented : Nat) : Nesting × Nat :=
  match n.pop? with
  | none => (n, indented)
  | some (l, n') => (n', if l.kind.isBracket then l.indented.toNat else indented)

/-- Closes a brace with the statements left open in it and those that waited for it. Without an
open brace, only statements are closed. -/
def closeBrace (n : Nesting) (indented : Nat) : Nesting × Nat :=
  let n := n.dropStatements
  if n.top.kind = .bracket .brace then
    let (n, indented) := n.close indented
    (n.dropStatements, indented)
  else (n, indented)

/-- Opens a statement where a token at `column` does so. -/
def openStatement (n : Nesting) (signal : Option Signal) (column indented : Nat) : Nesting :=
  if opensStatement n.top.kind signal then n.push (.opened indented column .statement) else n

/-- The nesting behind a significant token at `column` on a line indented by `indented`, and the
indentation that the line has from there on. -/
def update (n : Nesting) (signal : Option Signal) (column indented : Nat) : Nesting × Nat :=
  let other := (n.openStatement signal column indented, indented)
  match signal with
  | some (.opening b) => (n.push (.opened indented column (.bracket b)), indented)
  | some (.closing .brace) => n.closeBrace indented
  | some (.closing b) => if n.top.kind = .bracket b then n.close indented else other
  | some .semicolon | some .colon =>
    if n.top.kind = .statement then n.close indented else other
  | _ => other

/-! ## Indentation -/

/-- The column proposed for a line that starts with `first`, possibly negative. A statement goes on
one unit further in, unless a brace opens its body; in an aligned level a line stands behind the
opener, and its closer under it; in any other level a line stands one unit further in than the
opener's line, and its closer not. -/
def proposal (n : Nesting) (first : Option Char) (unit : Nat) : Int :=
  let l := n.top
  let closes := first.isSome && first == l.kind.closeChar?
  if l.kind = .statement then
    l.indented + (if first = some '\x7b' then 0 else signed unit)
  else if l.aligned = some true then signed l.column + (if closes then 0 else 1)
  else l.indented + (if closes then 0 else signed unit)

/-- The column of a line that starts with `first`. -/
def indentation (n : Nesting) (first : Option Char) (unit : Nat) : Nat :=
  (n.proposal first unit).toNat

end Nesting

end ShaderText
