/-
Hooks let a character capture the token that it starts. A hook is asked in code, with the cursor
just behind its trigger character; it captures a number of further characters, or it declines and
the character is read like any other. A hook reads only forward from its trigger: it neither moves
the start of the token nor gives the trigger back, so no captured token is empty.
-/
import Std.Data.TreeMap
import ShaderText.Cursor
import ShaderText.State
import ShaderText.Text.Quoted

namespace ShaderText

/-- What a hook captures: a category, and how many characters behind the trigger belong to it. -/
structure Capture where
  category : Category
  length : Nat
  deriving DecidableEq, Repr, Inhabited

/-- Looks at the line and at the state, and captures the token or declines. What is captured goes
forward from the trigger: hooks that move the start of the token, or end it where it starts, are not
expressed. -/
abbrev Hook := Cursor → State → Option Capture

/-- A directive: at the start of a line the trigger captures the rest of the line. -/
def Hook.directive : Hook := fun c s =>
  if s.startOfLine then some ⟨.directive, c.rest.length⟩ else none

/-! ## Named hooks -/

/-- The hooks that settings can name. -/
inductive HookKind
  | directive
  deriving DecidableEq, Repr, Inhabited

namespace HookKind

/-- The name of a hook in settings. -/
def name : HookKind → String
  | directive => "preprocessor"

/-- The hook of a name. -/
def ofName? (s : String) : Option HookKind :=
  if s = directive.name then some directive else none

def hook : HookKind → Hook
  | directive => Hook.directive

theorem ofName?_name (k : HookKind) : ofName? k.name = some k := by cases k; rfl

theorem ofName?_eq_some_iff (s : String) (k : HookKind) : ofName? s = some k ↔ s = k.name := by
  cases k
  unfold ofName?
  split <;> simp_all

end HookKind

/-! ## Tables -/

/-- Hooks by trigger character. -/
abbrev HookTable := Std.TreeMap Char Hook

namespace HookTable

/-- `#` starts a directive. -/
def shader : HookTable := (∅ : HookTable).insert '#' Hook.directive

/-- The trigger characters, in order. -/
def triggers (t : HookTable) : List Char := t.keys

/-- The trigger characters as messages show them. -/
def describe (t : HookTable) : String :=
  "\x7b" ++ ", ".intercalate (t.triggers.map quoteChar) ++ "\x7d"

/-- Every hook of the table is the one for directives. -/
def OnlyDirectives (t : HookTable) : Prop :=
  ∀ (c : Char) (h : Hook), t[c]? = some h → h = Hook.directive

theorem onlyDirectives_shader : OnlyDirectives shader := by
  intro c h hc
  simp only [shader, Std.TreeMap.getElem?_insert] at hc
  split at hc
  · cases hc; rfl
  · simp at hc

end HookTable

end ShaderText
